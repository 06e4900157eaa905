import ChainDB.Authentication

/-! The request builders of the client, cli/src/Application.cpp, and the password check that
their requests meet. -/
namespace ChainDB
open Effects

structure Application where
  password : Bytes
  deriving DecidableEq, Repr

namespace Application

/- cli/include/Defs.h has its own definition. -/
def PASSWORD_SALT : Bytes := ascii "EMPTY_SALT/"

def setAuthData (sys : Platform) (app : Application) (data : IPC.AuthData) : Action IPC.AuthData :=
  if app.password = [] then pure data
  else do
    match ← Exec.attempt (SHA256.getHash sys [PASSWORD_SALT,app.password]) with
    | none => pure data
    | some hash => pure {data with passwordHash := hash.bytes}

def withAuthData (sys : Platform) (app : Application) (fill : IPC.Request → IPC.Request) :
    Action IPC.Request := do
  let data ← setAuthData sys app ⟨[]⟩
  pure (fill {authData := some data})

def ping : Action IPC.Request := pure {pingRequest := some {}}

def createChain (sys : Platform) (app : Application) (chainId : UInt64) (data : Bytes) :
    Action IPC.Request :=
  withAuthData sys app fun req => {req with createChainRequest := some ⟨chainId,data⟩}

def removeChain (sys : Platform) (app : Application) (chainId : UInt64) : Action IPC.Request :=
  withAuthData sys app fun req => {req with removeChainRequest := some ⟨chainId⟩}

def addBlock (sys : Platform) (app : Application) (chainId : UInt64) (data : Bytes) :
    Action IPC.Request :=
  withAuthData sys app fun req => {req with addBlockRequest := some ⟨chainId,data⟩}

def getBlock (sys : Platform) (app : Application) (chainId blockId : UInt64) : Action IPC.Request :=
  withAuthData sys app fun req => {req with getBlockRequest := some ⟨chainId,blockId⟩}

def getBlocks (sys : Platform) (app : Application) (chainId : UInt64) : Action IPC.Request :=
  withAuthData sys app fun req => {req with getBlocksRequest := some ⟨chainId⟩}

def verifyChain (sys : Platform) (app : Application) (chainId : UInt64) : Action IPC.Request :=
  withAuthData sys app fun req => {req with verifyChainRequest := some ⟨chainId⟩}

def getChainHeader (sys : Platform) (app : Application) (chainId : UInt64) : Action IPC.Request :=
  withAuthData sys app fun req => {req with getChainHeaderRequest := some ⟨chainId⟩}

def getChainKeys (sys : Platform) (app : Application) (chainId : UInt64) : Action IPC.Request :=
  withAuthData sys app fun req => {req with getChainKeysRequest := some ⟨chainId⟩}

def getChainInfo (sys : Platform) (app : Application) (chainId : UInt64) : Action IPC.Request :=
  withAuthData sys app fun req => {req with getChainInfoRequest := some ⟨chainId⟩}

inductive Command where
  | ping
  | createChain (chainId : UInt64) (data : Bytes)
  | removeChain (chainId : UInt64)
  | addBlock (chainId : UInt64) (data : Bytes)
  | getBlock (chainId blockId : UInt64)
  | getBlocks (chainId : UInt64)
  | verifyChain (chainId : UInt64)
  | getChainHeader (chainId : UInt64)
  | getChainKeys (chainId : UInt64)
  | getChainInfo (chainId : UInt64)
  deriving DecidableEq, Repr

def request (sys : Platform) (app : Application) : Command → Action IPC.Request
  | .ping => ping
  | .createChain chainId data => createChain sys app chainId data
  | .removeChain chainId => removeChain sys app chainId
  | .addBlock chainId data => addBlock sys app chainId data
  | .getBlock chainId blockId => getBlock sys app chainId blockId
  | .getBlocks chainId => getBlocks sys app chainId
  | .verifyChain chainId => verifyChain sys app chainId
  | .getChainHeader chainId => getChainHeader sys app chainId
  | .getChainKeys chainId => getChainKeys sys app chainId
  | .getChainInfo chainId => getChainInfo sys app chainId

def message (sys : Platform) (app : Application) (command : Command) : Action Bytes := do
  let req ← request sys app command
  sys.request.serializeToString req

section Requests
variable {sys : Platform} {app : Application}

theorem withAuthDataDone {fill : IPC.Request → IPC.Request} {w t : World} {req : IPC.Request}
    (h : withAuthData sys app fill w = (.done req,t))
    (kept : ∀ req, (fill req).authData = req.authData) :
    ∃ data, setAuthData sys app ⟨[]⟩ w = (.done data,t) ∧ req.authData = some data := by
  obtain ⟨data,u,filled,same⟩ := Exec.bindDone.mp h
  cases same
  exact ⟨data,filled,kept _⟩

theorem requestDone {command : Command} {w t : World} {req : IPC.Request}
    (h : request sys app command w = (.done req,t)) (other : command ≠ .ping) :
    ∃ data, setAuthData sys app ⟨[]⟩ w = (.done data,t) ∧ req.authData = some data := by
  cases command with
  | ping => exact absurd rfl other
  | _ =>
    simp only [request,createChain,removeChain,addBlock,getBlock,getBlocks,verifyChain,getChainHeader,
      getChainKeys,getChainInfo] at h
    exact withAuthDataDone h fun _ => rfl

/- The hash that the client sends when its own hash calls succeed. -/
def passwordHash (sys : Platform) (password : Bytes) : Bytes :=
  if password = [] then [] else (sys.sha256 (PASSWORD_SALT ++ password)).bytes

theorem setAuthDataDone {w t : World} {data : IPC.AuthData} (hashing : ∀ n, (w.draws n).ok .hash = true)
    (h : setAuthData sys app ⟨[]⟩ w = (.done data,t)) :
    data.passwordHash = passwordHash sys app.password := by
  unfold setAuthData at h
  unfold passwordHash
  split at h
  · rename_i empty
    cases h
    rw [if_pos empty]
  · rename_i filled
    obtain ⟨hash,u,hashed⟩ := SHA256.hashSucceeds sys [PASSWORD_SALT,app.password] hashing
    rw [Exec.bindOfDone (Exec.attemptSome.mpr hashed)] at h
    cases h
    rw [if_neg filled,(SHA256.hashDone hashed).1]
    simp

end Requests

end Application

namespace Handler

def Passes (sys : Platform) (handler : Handler) (msg : Bytes) (w : World) : Prop :=
  ∃ req data u, sys.request.parseFromString msg = some req ∧ req.authData = some data ∧
    checkAuth sys handler data w = (.done (),u)

theorem passesServed {sys handler msg w} (locked : handler.password ≠ [])
    (h : Passes sys handler msg w) :
    ∃ req u, sys.request.parseFromString msg = some req ∧ Quiet w u ∧
      handleMessage sys handler msg w = dispatch sys handler req u := by
  obtain ⟨req,data,u,parsed,carried,checked⟩ := h
  refine ⟨req,u,parsed,(checkAuthSteady data).quiet.apply checked,?_⟩
  simp only [handleMessage,parsed,if_pos locked,carried]
  rw [Exec.bindOfDone (Exec.attemptSome.mpr checked)]

theorem passesIff {sys : Platform} {handler : Handler} {msg : Bytes} {dir : Directory} {draws : Draws}
    (hashing : ∀ n, (draws n).ok .hash = true) : Passes sys handler msg (start dir draws) ↔
      ∃ req, sys.request.parseFromString msg = some req ∧ Authorized sys handler req := by
  constructor
  · rintro ⟨req,data,u,parsed,carried,checked⟩
    exact ⟨req,parsed,data,carried,checkAuthDone checked⟩
  · rintro ⟨req,parsed,data,carried,own⟩
    obtain ⟨hash,u,hashed⟩ := @SHA256.hashSucceeds sys [PASSWORD_SALT,handler.password]
      (start dir draws) hashing
    exact ⟨req,data,u,parsed,carried,checkAuthHolds own hashed⟩

end Handler

namespace Application

/- What is asked of the two programs: only the same password passes, unless SHA-256 collides. -/
def Agreement (sys : Platform) (p q : Bytes) (passes : Prop) : Prop :=
  (passes ↔ p = q) ∨ (Handler.PASSWORD_SALT ++ p ≠ Handler.PASSWORD_SALT ++ q ∧
    sys.sha256 (Handler.PASSWORD_SALT ++ p) = sys.sha256 (Handler.PASSWORD_SALT ++ q))

theorem messageDone {sys : Platform} (lawful : sys.request.Lawful) {app : Application}
    {command : Command} {dir : Directory} {draws : Draws} {msg : Bytes} {t : World}
    (hashing : ∀ n, (draws n).ok .hash = true)
    (sent : message sys app command (start dir draws) = (.done msg,t)) :
    ∃ req, sys.request.parseFromString msg = some req ∧
      req.authData.map IPC.AuthData.passwordHash =
        if command = .ping then none else some (passwordHash sys app.password) := by
  obtain ⟨req,u,built,serial⟩ := Exec.bindDone.mp sent
  obtain ⟨rfl,fits⟩ := serialized serial
  refine ⟨req,lawful req fits,?_⟩
  split
  · rename_i own
    subst own
    cases built
    rfl
  · rename_i other
    obtain ⟨data,filled,carried⟩ := requestDone built other
    rw [carried,Option.map_some,setAuthDataDone hashing filled]

theorem authorizedIff {sys : Platform} {handler : Handler} {req : IPC.Request} :
    Handler.Authorized sys handler req ↔ req.authData.map IPC.AuthData.passwordHash =
      some (sys.sha256 (Handler.PASSWORD_SALT ++ handler.password)).bytes := by
  simp only [Handler.Authorized,Option.map_eq_some_iff]

theorem passwordHashAgrees (sys : Platform) (p q : Bytes) (secret : q ≠ []) :
    Agreement sys p q (passwordHash sys p = (sys.sha256 (Handler.PASSWORD_SALT ++ q)).bytes) := by
  unfold passwordHash
  split
  · rename_i empty
    have sized := (sys.sha256 (Handler.PASSWORD_SALT ++ q)).sized
    refine Or.inl (iff_of_false (fun same => ?_) (fun same => secret (same ▸ empty)))
    rw [← same] at sized
    cases sized
  · by_cases same : p = q
    · subst same
      exact Or.inl (iff_of_true rfl rfl)
    · by_cases collides :
        sys.sha256 (Handler.PASSWORD_SALT ++ p) = sys.sha256 (Handler.PASSWORD_SALT ++ q)
      · exact Or.inr ⟨fun h => same (List.append_cancel_left h),collides⟩
      · exact Or.inl (iff_of_false (fun h => collides (Data.eqOfBytes h)) same)

theorem clientAuthenticationExact {sys : Platform} (lawful : sys.request.Lawful) (manager : Manager)
    (p q : Bytes) (secret : q ≠ []) (command : Command) (msg : Bytes) (t : World)
    (dirC dirS : Directory) (drawsC drawsS : Draws)
    (hashingC : ∀ n, (drawsC n).ok .hash = true) (hashingS : ∀ n, (drawsS n).ok .hash = true)
    (sent : message sys ⟨p⟩ command (start dirC drawsC) = (.done msg,t)) :
    Agreement sys p q (Handler.Passes sys ⟨manager,q⟩ msg (start dirS drawsS)) ↔
      (command ≠ .ping ∨ p ≠ q) := by
  obtain ⟨req,parsed,carried⟩ := messageDone lawful hashingC sent
  have passes : Handler.Passes sys ⟨manager,q⟩ msg (start dirS drawsS) ↔
      Handler.Authorized sys ⟨manager,q⟩ req := by
    simp only [Handler.passesIff hashingS,parsed,Option.some.injEq,exists_eq_left']
  rw [passes,authorizedIff,carried]
  by_cases own : command = .ping
  · subst own
    simp only [if_true,reduceCtorEq,ne_eq,not_true_eq_false,false_or]
    constructor
    · rintro (different | ⟨different,_⟩) same
      · exact different.mpr same
      · exact different (congrArg _ same)
    · intro different
      exact Or.inl (iff_of_false id different)
  · simp only [if_neg own,Option.some.injEq]
    exact iff_of_true (passwordHashAgrees sys p q secret) (Or.inl own)

def samplePingMessage : Bytes :=
  Sample.platform.request.encode {pingRequest := some {}}

def sampleInfoMessage : Bytes :=
  Sample.platform.request.encode
    {authData := some ⟨(Sample.sha256 (ascii "EMPTY_SALT/q")).bytes⟩,getChainInfoRequest := some ⟨1⟩}

theorem pingWithoutPassword :
    message Sample.platform ⟨ascii "q"⟩ .ping (start Manager.emptyDirectory (Sample.steady 1)) =
        (.done samplePingMessage,
          (message Sample.platform ⟨ascii "q"⟩ .ping
            (start Manager.emptyDirectory (Sample.steady 1))).2) ∧
      ¬ Agreement Sample.platform (ascii "q") (ascii "q")
        (Handler.Passes Sample.platform ⟨⟨[]⟩,ascii "q"⟩ samplePingMessage
          (start Manager.emptyDirectory (Sample.steady 1))) := by
  have sent : (message Sample.platform ⟨ascii "q"⟩ .ping
      (start Manager.emptyDirectory (Sample.steady 1))).1 = .done samplePingMessage := by
    decide +kernel
  refine ⟨Prod.ext sent rfl,?_⟩
  rintro (same | ⟨different,_⟩)
  · obtain ⟨req,data,_,parsed,carried,_⟩ := same.mpr rfl
    have known : Sample.platform.request.parseFromString samplePingMessage =
        some {pingRequest := some {}} := by decide +kernel
    cases known.symm.trans parsed
    cases carried
  · exact different rfl

theorem infoWithPassword :
    Agreement Sample.platform (ascii "q") (ascii "q")
        (Handler.Passes Sample.platform ⟨⟨[]⟩,ascii "q"⟩ sampleInfoMessage
          (start Manager.emptyDirectory (Sample.steady 1))) ↔
      (Command.getChainInfo 1 ≠ .ping ∨ ascii "q" ≠ ascii "q") :=
  clientAuthenticationExact Sample.requestLawful ⟨[]⟩ (ascii "q") (ascii "q") (by decide)
    (.getChainInfo 1) sampleInfoMessage _ Manager.emptyDirectory Manager.emptyDirectory (Sample.steady 1)
    (Sample.steady 1) (fun _ => rfl) (fun _ => rfl) (Prod.ext (by decide +kernel) rfl)

end Application
end ChainDB
