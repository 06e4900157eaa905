import ChainDB.Requests
import ChainDB.Programs
import ChainDB.Refinement
import ChainDB.Answers

/-! The handler as a whole. A message becomes at most one call of the manager, so a server's directory
is the result of a run of calls; and what the clients are answered is what a table of append-only
lists answers. -/
namespace ChainDB
open Effects

namespace Handler

def gate (sys : Platform) (handler : Handler) (req : IPC.Request) : Action Unit :=
  if handler.password ≠ [] then
    match req.authData with
    | none => Exec.absent
    | some data => checkAuth sys handler data
  else pure ()

def refusalOf (req : IPC.Request) : IPC.Response :=
  statusResponse .notAuthorized
    (if req.authData = none then ascii "No authorization data" else ascii "Invalid password")

def unparsed : IPC.Response := statusResponse .dataError (ascii "Can't parse data")

def callOf (sys : Platform) (handler : Handler) (arrival : Arrival) : Option Manager.Call :=
  match sys.request.parseFromString arrival.msg with
  | none => none
  | some req =>
    match planOf req,gate sys handler req (start Manager.emptyDirectory arrival.draws) with
    | .call chainId operation _,(.done _,w) => some ⟨chainId,operation,w.draws⟩
    | _,_ => none

section Gate
variable {sys : Platform} {handler : Handler} {req : IPC.Request}

theorem gateSteady : Steady (gate sys handler req) := by
  unfold gate
  split
  · split
    · exact ⟨Exec.keepsAbsent,fun w e t h => by cases h⟩
    · exact checkAuthSteady _
  · exact steadyPure ()

theorem gateSees {seen : Path → Prop} : Sees seen (gate sys handler req) := by
  unfold gate
  split
  · split
    · exact Exec.alikeAbsent
    · exact checkAuthSees _
  · exact Exec.alikePure ()

theorem gatePassed {w u : World} (h : gate sys handler req w = (.done (),u)) :
    u.failed = w.failed ∧ Admitted sys handler req := by
  by_cases locked : handler.password ≠ []
  · cases carried : req.authData with
    | none =>
      simp only [gate,if_pos locked,carried] at h
      cases h
    | some data =>
      simp only [gate,if_pos locked,carried] at h
      refine ⟨?_,Or.inr ⟨data,carried,checkAuthDone h⟩⟩
      simp only [checkAuth,Exec.bindDone,Exec.checkDone] at h
      obtain ⟨_,_,⟨_,rfl⟩,hash,v,hashed,_,rfl⟩ := h
      rcases (SHA256.hashTakes sys [PASSWORD_SALT,handler.password]).cases w with
        ⟨_,run⟩ | ⟨_,t,run,_⟩
      · cases hashed.symm.trans run
        exact laterFailed w
      · cases hashed.symm.trans run
  · simp only [gate,if_neg locked] at h
    cases h
    exact ⟨rfl,Or.inl (not_not.mp locked)⟩

theorem gateRefused {w u : World} (h : gate sys handler req w = (.absent,u)) (clean : u.failed = false) :
    ¬ Admitted sys handler req := by
  by_cases locked : handler.password ≠ []
  · rintro (open_ | ⟨data,carried,own⟩)
    · exact locked open_
    · simp only [gate,if_pos locked,carried] at h
      rcases (SHA256.hashTakes sys [PASSWORD_SALT,handler.password]).cases w with
        ⟨_,run⟩ | ⟨_,t,run,failed⟩
      · cases h.symm.trans (checkAuthHolds own run)
      · have sized : data.passwordHash.length = 32 := by rw [own]; exact (sys.sha256 _).sized
        unfold checkAuth at h
        rw [Exec.bindOfDone ((Exec.checkDone (u := ())).mpr ⟨sized,rfl⟩),Exec.bindOfAbsent run] at h
        cases h
        cases clean.symm.trans failed
  · simp only [gate,if_neg locked] at h
    cases h

theorem gateWorld {dir : Directory} {draws : Draws} {u : World}
    (h : gate sys handler req (start dir draws) = (.done (),u)) : SameBesidesLog u (start dir u.draws) := by
  have quiet := gateSteady.quiet.apply h
  exact ⟨quiet.directory,quiet.opened,rfl,(gatePassed h).1⟩

theorem handleGated {msg : Bytes} (parsed : sys.request.parseFromString msg = some req) :
    handleMessage sys handler msg = (do
      match ← Exec.attempt (gate sys handler req) with
      | none => makeResponse sys (refusalOf req)
      | some _ => follow sys handler (planOf req)) := by
  funext w
  simp only [handleMessage,parsed]
  by_cases locked : handler.password ≠ []
  · simp only [if_pos locked,gate]
    cases carried : req.authData with
    | none =>
      simp only [refusalOf,carried,if_true]
      rfl
    | some data =>
      rw [dispatchPlanned]
      simp only [refusalOf,carried,reduceCtorEq,if_false]
      rfl
  · simp only [if_neg locked,gate]
    rw [dispatchPlanned]
    rfl

end Gate

theorem performPresent {sys : Platform} {manager : Manager} {chainId : UInt64}
    {operation : Manager.Operation} {w t : World} :
    Manager.perform sys manager chainId operation w ≠ (.absent,t) := by
  have wrapped : ∀ {α β : Type} (m : Action α) (g : Option α → β),
      (Exec.attempt m >>= fun r => pure (g r)) w ≠ (.absent,t) := by
    intro α β m g h
    rcases Exec.bindAbsent.mp h with h | ⟨_,_,_,h⟩
    · exact Exec.attemptNotAbsent h
    · cases h
  cases operation with
  | getBlocks blocks =>
    intro h
    rcases Exec.bindAbsent.mp h with h | ⟨_,_,_,h⟩
    · exact wrapped _ _ h
    · cases h
  | _ => exact wrapped _ _

inductive Handling (sys : Platform) (handler : Handler) (arrival : Arrival) (dir : Directory) :
    Outcome Halt Bytes → World → Prop where
  | unparsed {o : Outcome Halt Bytes} {t : World}
      (parsed : sys.request.parseFromString arrival.msg = none)
      (run : makeResponse sys unparsed (start dir arrival.draws) = (o,t)) :
      Handling sys handler arrival dir o t
  | refused {o : Outcome Halt Bytes} {t : World} (req : IPC.Request) (u : World)
      (parsed : sys.request.parseFromString arrival.msg = some req)
      (gate : gate sys handler req (start dir arrival.draws) = (.absent,u))
      (run : makeResponse sys (refusalOf req) u = (o,t)) : Handling sys handler arrival dir o t
  | told {o : Outcome Halt Bytes} {t : World} (req : IPC.Request) (resp : IPC.Response) (u : World)
      (parsed : sys.request.parseFromString arrival.msg = some req)
      (gate : gate sys handler req (start dir arrival.draws) = (.done (),u))
      (plan : planOf req = .reply resp) (run : makeResponse sys resp u = (o,t)) :
      Handling sys handler arrival dir o t
  | called {o : Outcome Halt Bytes} {t : World} (req : IPC.Request) (call : Manager.Call)
      (answer : Manager.Result → IPC.Response) (result : Manager.Result) (u v : World)
      (parsed : sys.request.parseFromString arrival.msg = some req)
      (gate : gate sys handler req (start dir arrival.draws) = (.done (),u))
      (plan : planOf req = .call call.chainId call.operation answer) (draws : call.draws = u.draws)
      (outcome : (Manager.effect sys handler.manager call dir).1 = .done result)
      (world : SameBesidesLog v (Manager.effect sys handler.manager call dir).2)
      (run : makeResponse sys (answer result) v = (o,t)) : Handling sys handler arrival dir o t
  | halted {t : World} (req : IPC.Request) (call : Manager.Call) (answer : Manager.Result → IPC.Response)
      (e : Halt) (u : World) (parsed : sys.request.parseFromString arrival.msg = some req)
      (gate : gate sys handler req (start dir arrival.draws) = (.done (),u))
      (plan : planOf req = .call call.chainId call.operation answer) (draws : call.draws = u.draws)
      (outcome : (Manager.effect sys handler.manager call dir).1 = .halt e)
      (world : SameBesidesLog t (Manager.effect sys handler.manager call dir).2) :
      Handling sys handler arrival dir (.halt e) t

section Messages
variable {sys : Platform} {handler : Handler} {arrival : Arrival} {dir : Directory}

theorem handling (sys : Platform) (handler : Handler) (arrival : Arrival) (dir : Directory) :
    Handling sys handler arrival dir (handleMessage sys handler arrival.msg (start dir arrival.draws)).1
      (handleMessage sys handler arrival.msg (start dir arrival.draws)).2 := by
  cases parsed : sys.request.parseFromString arrival.msg with
  | none =>
    refine .unparsed parsed ?_
    simp only [handleMessage,parsed]
    rfl
  | some req =>
    rw [handleGated parsed]
    rcases passed : gate sys handler req (start dir arrival.draws) with ⟨⟨⟩ | _ | e,u⟩
    · rw [Exec.bindOfDone (Exec.attemptSome.mpr passed)]
      cases plan : planOf req with
      | reply resp => exact .told req resp u parsed passed plan rfl
      | call chainId operation answer =>
        obtain ⟨same,world⟩ := (performProgram sys handler.manager chainId operation).blind u
          (start dir u.draws) (gateWorld passed)
        rcases run : Manager.perform sys handler.manager chainId operation u with ⟨result | _ | e,v⟩
        · rw [run] at same world
          simp only [follow]
          rw [Exec.bindOfDone run]
          exact .called req ⟨chainId,operation,u.draws⟩ answer result u v parsed passed plan rfl same.symm
            world rfl
        · exact absurd run performPresent
        · rw [run] at same world
          simp only [follow]
          rw [Exec.bindOfHalt run]
          exact .halted req ⟨chainId,operation,u.draws⟩ answer e u parsed passed plan rfl same.symm world
    · rw [Exec.bindOfDone (Exec.attemptNone.mpr passed)]
      exact .refused req u parsed passed rfl
    · exact absurd passed (gateSteady.total _ e u)

theorem gateAnywhere {req : IPC.Request} {o : Outcome Halt Unit} {draws : Draws} {u : World}
    (h : gate sys handler req (start dir draws) = (o,u)) :
    ∃ v, gate sys handler req (start Manager.emptyDirectory draws) = (o,v) ∧ v.draws = u.draws := by
  have alike := @gateSees sys handler req (fun _ => False) (start dir draws)
    (start Manager.emptyDirectory draws) ⟨nofun,rfl,rfl,rfl,rfl⟩
  rw [h] at alike
  exact ⟨_,Exec.outcomeApply alike.1.symm,alike.2.draws.symm⟩

theorem callOfGate {req : IPC.Request} {u : World} {chainId : UInt64}
    {operation : Manager.Operation} {answer : Manager.Result → IPC.Response}
    (parsed : sys.request.parseFromString arrival.msg = some req)
    (passed : gate sys handler req (start dir arrival.draws) = (.done (),u))
    (plan : planOf req = .call chainId operation answer) :
    callOf sys handler arrival = some ⟨chainId,operation,u.draws⟩ := by
  obtain ⟨v,here,same⟩ := gateAnywhere passed
  simp only [callOf,parsed,plan,here,same]

theorem callOfRefused {req : IPC.Request} {u : World}
    (parsed : sys.request.parseFromString arrival.msg = some req)
    (passed : gate sys handler req (start dir arrival.draws) = (.absent,u)) :
    callOf sys handler arrival = none := by
  obtain ⟨v,here,_⟩ := gateAnywhere passed
  simp only [callOf,parsed,here]
  cases planOf req <;> rfl

theorem callOfTold {req : IPC.Request} {resp : IPC.Response}
    (parsed : sys.request.parseFromString arrival.msg = some req) (plan : planOf req = .reply resp) :
    callOf sys handler arrival = none := by
  simp only [callOf,parsed,plan]

theorem responseDirectory {resp : IPC.Response} {w t : World} {o : Outcome Halt Bytes}
    (run : makeResponse sys resp w = (o,t)) : t.directory = w.directory :=
  ((serializeTame sys.response resp).quiet.apply run).directory

theorem afterCall : after sys handler arrival dir = (callOf sys handler arrival).elim dir
    (fun call => Manager.after sys handler.manager call dir) := by
  have handled := handling sys handler arrival dir
  unfold after
  generalize handleMessage sys handler arrival.msg (start dir arrival.draws) = ran at handled ⊢
  obtain ⟨o,t⟩ := ran
  cases handled with
  | unparsed parsed run =>
    simp only [callOf,parsed,Option.elim]
    exact responseDirectory run
  | refused req u parsed passed run =>
    rw [callOfRefused parsed passed,responseDirectory run]
    exact (gateSteady.quiet.apply passed).directory
  | told req resp u parsed passed plan run =>
    rw [callOfTold parsed plan,responseDirectory run]
    exact (gateSteady.quiet.apply passed).directory
  | called req call answer result u v parsed passed plan draws outcome world run =>
    obtain ⟨chainId,operation,_⟩ := call
    subst draws
    rw [callOfGate parsed passed plan,responseDirectory run]
    exact world.directory
  | halted req call answer e u parsed passed plan draws outcome world =>
    obtain ⟨chainId,operation,_⟩ := call
    subst draws
    rw [callOfGate parsed passed plan]
    exact world.directory

end Messages

def calls (sys : Platform) (handler : Handler) (arrivals : List Arrival) : List Manager.Call :=
  arrivals.filterMap (callOf sys handler)

theorem servedRun (sys : Platform) (handler : Handler) (dir : Directory) (arrivals : List Arrival) :
    served sys handler dir arrivals = (Manager.run sys handler.manager dir (calls sys handler arrivals)).2 := by
  induction arrivals generalizing dir with
  | nil => rfl
  | cons arrival rest ih =>
    rw [servedCons,ih,afterCall]
    cases leads : callOf sys handler arrival with
    | none => simp only [calls,List.filterMap_cons_none leads,Option.elim]
    | some call => simp only [calls,List.filterMap_cons_some leads,Option.elim,Manager.run]

section Replies
variable {sys : Platform} {handler : Handler} {arrival : Arrival} {dir : Directory}

theorem responseClean {resp : IPC.Response} {w t : World} {o : Outcome Halt Bytes}
    (run : makeResponse sys resp w = (o,t)) (clean : t.failed = false) : w.failed = false ∧
      o = .done (sys.response.encode resp) ∧ (sys.response.encode resp).length ≤ maxMessageLength := by
  have tame := serializeTame sys.response resp
  refine ⟨(tame.quiet.apply run).toForward.clean clean,?_⟩
  cases o with
  | done reply =>
    obtain ⟨rfl,fits⟩ := serialized run
    exact ⟨rfl,fits⟩
  | absent => cases clean.symm.trans (tame.blames w t run)
  | halt e => exact absurd run (tame.total w e t)

theorem verifiedCall {chainId : UInt64} {db : Database} {header : Header} {blocks : List Block}
    {draws : Draws} (here : dir (handler.manager.makeStoragePath chainId) = some db)
    (verified : Chain.Verified sys db header blocks)
    (clean : (Manager.effect sys handler.manager ⟨chainId,.verifyChain,draws⟩ dir).2.failed = false) :
    (Manager.effect sys handler.manager ⟨chainId,.verifyChain,draws⟩ dir).1 = .done (.flag true) := by
  have still : (handler.manager.verifyChain sys chainId (start dir draws)).2.failed = false :=
    (congrArg World.failed Exec.attemptMapState).symm.trans clean
  obtain ⟨t,run⟩ := Manager.verifyChainHolds here (by simp [start]) verified still
  simp only [Manager.effect,Manager.perform,Exec.attemptMap,run,Option.isSome_some]

theorem everyServedChainVerifies {sys : Platform} (lawfulHeader : sys.header.Lawful)
    (lawfulBlock : sys.block.Lawful) (signatures : sys.SignaturesVerify) (handler : Handler)
    (arrivals : List Arrival) (chainId : UInt64)
    (few : Manager.additions chainId (Manager.run sys handler.manager Manager.emptyDirectory
      (calls sys handler arrivals)).1 < 2^64 - 1) (db : Database)
    (here : served sys handler Manager.emptyDirectory arrivals
      (handler.manager.makeStoragePath chainId) = some db) (held : db.lookup DB_HEADER_KEY ≠ none)
    (arrival : Arrival) (req : IPC.Request)
    (parsed : sys.request.parseFromString arrival.msg = some req) (admitted : Admitted sys handler req)
    (asks : planOf req = .call chainId .verifyChain verifyAnswer)
    (clean : (handleMessage sys handler arrival.msg
      (start (served sys handler Manager.emptyDirectory arrivals) arrival.draws)).2.failed = false) :
    (handleMessage sys handler arrival.msg
      (start (served sys handler Manager.emptyDirectory arrivals) arrival.draws)).1 =
        .done (sys.response.encode success) := by
  have built := Manager.runBuilt lawfulHeader lawfulBlock handler.manager (calls sys handler arrivals)
    chainId few
  rw [← servedRun,here] at built
  obtain ⟨header,blocks,verified⟩ := Manager.builtVerified signatures built held
  have handled := handling sys handler arrival (served sys handler Manager.emptyDirectory arrivals)
  generalize handleMessage sys handler arrival.msg
    (start (served sys handler Manager.emptyDirectory arrivals) arrival.draws) = ran at handled clean ⊢
  obtain ⟨o,t⟩ := ran
  cases handled with
  | unparsed none => cases parsed.symm.trans none
  | refused other u same passed run =>
    cases parsed.symm.trans same
    exact absurd admitted (gateRefused passed (responseClean run clean).1)
  | told other resp u same passed plan =>
    cases parsed.symm.trans same
    cases asks.symm.trans plan
  | called other call answer result u v same passed plan draws outcome world run =>
    cases parsed.symm.trans same
    obtain ⟨callId,operation,own⟩ := call
    cases asks.symm.trans plan
    obtain ⟨cleanV,reply,_⟩ := responseClean run clean
    cases outcome.symm.trans (verifiedCall here verified (world.failed.symm.trans cleanV))
    exact reply
  | halted other call answer e u same passed plan draws outcome world =>
    cases parsed.symm.trans same
    obtain ⟨callId,operation,own⟩ := call
    cases asks.symm.trans plan
    cases outcome.symm.trans (verifiedCall here verified (world.failed.symm.trans clean))

def lockedHandler : Handler := ⟨⟨[]⟩,ascii "q"⟩

def signed (req : IPC.Request) : Arrival := arrivalOf
  {req with authData := some ⟨(Sample.sha256 (ascii "EMPTY_SALT/q")).bytes⟩}

def sampleVisits : List Arrival := [⟨[255],Sample.steady 1⟩,arrivalOf createRequest,signed createRequest,
  signed {addBlockRequest := some ⟨1,ascii "a"⟩},
  ⟨(signed {addBlockRequest := some ⟨1,ascii "b"⟩}).msg,
    fun _ => ⟨fun kind => decide (kind ≠ .secp),fun _ => 0⟩⟩]

def verifyRequest : IPC.Request := {verifyChainRequest := some ⟨1⟩}

theorem sampleVisitsVerify :
    (handleMessage Sample.platform lockedHandler (signed verifyRequest).msg
      (start (served Sample.platform lockedHandler Manager.emptyDirectory sampleVisits)
        (signed verifyRequest).draws)).1 = .done (Sample.platform.response.encode success) :=
  everyServedChainVerifies Sample.headerLawful Sample.blockLawful Sample.signaturesVerify lockedHandler
    sampleVisits 1 (by decide +kernel) _ (Option.eq_some_of_isSome (by decide +kernel))
    (by decide +kernel) (signed verifyRequest)
    {verifyRequest with authData := some ⟨(Sample.sha256 (ascii "EMPTY_SALT/q")).bytes⟩}
    (by decide +kernel) (Or.inr ⟨_,rfl,by decide +kernel⟩) rfl (by decide +kernel)

end Replies

abbrev Store := UInt64 → Option Ledger

inductive Answers (sys : Platform) (handler : Handler) (store : Store) (msg : Bytes) :
    IPC.Response → Store → Prop where
  | unparsed (parsed : sys.request.parseFromString msg = none) :
      Answers sys handler store msg unparsed store
  | refused (req : IPC.Request) (parsed : sys.request.parseFromString msg = some req)
      (stranger : ¬ Admitted sys handler req) : Answers sys handler store msg (refusalOf req) store
  | told (req : IPC.Request) (resp : IPC.Response) (parsed : sys.request.parseFromString msg = some req)
      (admitted : Admitted sys handler req) (plan : planOf req = .reply resp) :
      Answers sys handler store msg resp store
  | called (req : IPC.Request) (chainId : UInt64) (operation : Manager.Operation)
      (answer : Manager.Result → IPC.Response) (result : Manager.Result) (view : Option Ledger)
      (parsed : sys.request.parseFromString msg = some req) (admitted : Admitted sys handler req)
      (plan : planOf req = .call chainId operation answer)
      (behaves : Manager.Behaves sys (handler.manager.chain chainId) (store chainId) operation result
        view) : Answers sys handler store msg (answer result) (Function.update store chainId view)

inductive AnswersAll (sys : Platform) (handler : Handler) :
    Store → List Bytes → List IPC.Response → Store → Prop where
  | nil (store : Store) : AnswersAll sys handler store [] [] store
  | cons {store middle last : Store} {msg : Bytes} {msgs : List Bytes} {resp : IPC.Response}
      {resps : List IPC.Response} (step : Answers sys handler store msg resp middle)
      (later : AnswersAll sys handler middle msgs resps last) :
      AnswersAll sys handler store (msg :: msgs) (resp :: resps) last

/- No list of the table is longer than `bound`, and each database represents its list. -/
def Stands (sys : Platform) (manager : Manager) (bound : Nat) (store : Store) (dir : Directory) : Prop :=
  ∀ chainId, ∃ n ≤ bound, Manager.Simulates sys n (store chainId) (dir (manager.makeStoragePath chainId))

def history (sys : Platform) (handler : Handler) :
    Directory → List Arrival → List (Outcome Halt Bytes × World)
  | _,[] => []
  | dir,arrival :: rest =>
    handleMessage sys handler arrival.msg (start dir arrival.draws) ::
      history sys handler (after sys handler arrival dir) rest

/- The client can read the reply as the response. -/
def Conveys (sys : Platform) (outcome : Outcome Halt Bytes) (resp : IPC.Response) : Prop :=
  ∃ reply, outcome = .done reply ∧ sys.response.parseFromString reply = some resp

section Table
variable {sys : Platform} {handler : Handler} {arrival : Arrival} {dir : Directory} {bound : Nat}
  {store : Store}

theorem Stands.step (lawfulHeader : sys.header.Lawful) (lawfulBlock : sys.block.Lawful)
    (stands : Stands sys handler.manager bound store dir) (few : bound + 1 < 2^64 - 1)
    (call : Manager.Call) (clean : (Manager.effect sys handler.manager call dir).2.failed = false) :
    ∃ result view, (Manager.effect sys handler.manager call dir).1 = .done result ∧
      Manager.Behaves sys (handler.manager.chain call.chainId) (store call.chainId) call.operation
        result view ∧
      Stands sys handler.manager (bound + 1) (Function.update store call.chainId view)
        (Manager.after sys handler.manager call dir) := by
  obtain ⟨n,below,sim⟩ := stands call.chainId
  have counted := Manager.tallyLe call.chainId n (Manager.event sys handler.manager call dir)
  obtain ⟨result,view,outcome,behaves,now⟩ :=
    Manager.everyCallSteps lawfulHeader lawfulBlock sim clean (by omega)
  refine ⟨result,view,outcome,behaves,fun chainId => ?_⟩
  by_cases own : chainId = call.chainId
  · subst own
    rw [Function.update_self]
    exact ⟨_,by omega,now⟩
  · obtain ⟨m,less,kept⟩ := stands chainId
    rw [Function.update_of_ne own,Manager.afterElsewhere own]
    exact ⟨m,by omega,kept⟩

theorem Stands.weaken {more : Nat} (stands : Stands sys handler.manager bound store dir)
    (le : bound ≤ more) : Stands sys handler.manager more store dir := by
  intro chainId
  obtain ⟨n,below,sim⟩ := stands chainId
  exact ⟨n,Nat.le_trans below le,sim⟩

theorem conveysResponse (lawful : sys.response.Lawful) {resp : IPC.Response} {w t : World}
    {o : Outcome Halt Bytes} (run : makeResponse sys resp w = (o,t)) (clean : t.failed = false) :
    Conveys sys o resp := by
  obtain ⟨_,reply,fits⟩ := responseClean run clean
  exact ⟨_,reply,lawful resp fits⟩

theorem answersStep (lawfulHeader : sys.header.Lawful) (lawfulBlock : sys.block.Lawful)
    (lawful : sys.response.Lawful) (stands : Stands sys handler.manager bound store dir)
    (few : bound + 1 < 2^64 - 1)
    (clean : (handleMessage sys handler arrival.msg (start dir arrival.draws)).2.failed = false) :
    ∃ resp next, Answers sys handler store arrival.msg resp next ∧
      Conveys sys (handleMessage sys handler arrival.msg (start dir arrival.draws)).1 resp ∧
      Stands sys handler.manager (bound + 1) next (after sys handler arrival dir) := by
  have handled := handling sys handler arrival dir
  have led := @afterCall sys handler arrival dir
  generalize handleMessage sys handler arrival.msg (start dir arrival.draws) = ran at handled clean ⊢
  obtain ⟨o,t⟩ := ran
  rw [led]
  have kept := stands.weaken (Nat.le_succ bound)
  cases handled with
  | unparsed parsed run =>
    have nothing : callOf sys handler arrival = none := by simp only [callOf,parsed]
    rw [nothing]
    exact ⟨_,store,.unparsed parsed,conveysResponse lawful run clean,kept⟩
  | refused req u parsed passed run =>
    rw [callOfRefused parsed passed]
    exact ⟨_,store,.refused req parsed (gateRefused passed (responseClean run clean).1),
      conveysResponse lawful run clean,kept⟩
  | told req resp u parsed passed plan run =>
    rw [callOfTold parsed plan]
    exact ⟨_,store,.told req resp parsed (gatePassed passed).2 plan,conveysResponse lawful run clean,kept⟩
  | called req call answer result u v parsed passed plan draws outcome world run =>
    obtain ⟨result',view,outcome',behaves,now⟩ := stands.step lawfulHeader lawfulBlock few call
      (world.failed.symm.trans (responseClean run clean).1)
    cases outcome.symm.trans outcome'
    obtain ⟨chainId,operation,_⟩ := call
    subst draws
    rw [callOfGate parsed passed plan]
    exact ⟨_,_,.called req chainId operation answer result view parsed (gatePassed passed).2 plan behaves,
      conveysResponse lawful run clean,now⟩
  | halted req call answer e u parsed passed plan draws outcome world =>
    obtain ⟨result,view,outcome',_⟩ := stands.step lawfulHeader lawfulBlock few call
      (world.failed.symm.trans clean)
    cases outcome.symm.trans outcome'

theorem Stands.run (lawfulHeader : sys.header.Lawful) (lawfulBlock : sys.block.Lawful)
    (lawful : sys.response.Lawful) (stands : Stands sys handler.manager bound store dir)
    {arrivals : List Arrival} (few : bound + arrivals.length < 2^64 - 1)
    (clean : ∀ handled ∈ history sys handler dir arrivals, handled.2.failed = false) :
    ∃ resps last, AnswersAll sys handler store (arrivals.map Arrival.msg) resps last ∧
      List.Forall₂ (Conveys sys) ((history sys handler dir arrivals).map Prod.fst) resps ∧
      Stands sys handler.manager (bound + arrivals.length) last (served sys handler dir arrivals) := by
  induction arrivals generalizing bound store dir with
  | nil => exact ⟨[],store,.nil store,.nil,stands⟩
  | cons arrival rest ih =>
    simp only [List.length_cons] at few ⊢
    obtain ⟨resp,next,answers,conveys,now⟩ := answersStep lawfulHeader lawfulBlock lawful stands
      (by omega) (clean _ (List.mem_cons_self ..))
    obtain ⟨resps,last,later,read,ends⟩ := ih now (by omega)
      fun handled member => clean handled (List.mem_cons_of_mem _ member)
    refine ⟨resp :: resps,last,.cons answers later,.cons conveys read,?_⟩
    have count : bound + 1 + rest.length = bound + (rest.length + 1) := by omega
    rw [← count]
    exact ends

theorem standsVacant {manager : Manager}
    (vacant : ∀ chainId, dir (manager.makeStoragePath chainId) = none) :
    Stands sys manager 0 (fun _ => none) dir := by
  intro chainId
  refine ⟨0,Nat.le_refl 0,?_⟩
  rw [vacant]
  rfl

theorem serverRefinesLedgers {sys : Platform} (lawfulHeader : sys.header.Lawful)
    (lawfulBlock : sys.block.Lawful) (lawful : sys.response.Lawful) (handler : Handler) (dir : Directory)
    (vacant : ∀ chainId, dir (handler.manager.makeStoragePath chainId) = none) (arrivals : List Arrival)
    (few : arrivals.length < 2^64 - 1)
    (clean : ∀ handled ∈ history sys handler dir arrivals, handled.2.failed = false) :
    ∃ resps last, AnswersAll sys handler (fun _ => none) (arrivals.map Arrival.msg) resps last ∧
      List.Forall₂ (Conveys sys) ((history sys handler dir arrivals).map Prod.fst) resps ∧
      Stands sys handler.manager arrivals.length last (served sys handler dir arrivals) := by
  have ran := (standsVacant vacant).run lawfulHeader lawfulBlock lawful (by omega) clean
  rwa [Nat.zero_add] at ran

def sampleTalk : List Arrival := [⟨[255],Sample.steady 1⟩,arrivalOf createRequest,signed createRequest,
  signed {addBlockRequest := some ⟨1,ascii "a"⟩},signed {getBlockRequest := some ⟨1,1⟩},
  signed {getBlocksRequest := some ⟨1⟩},signed {removeChainRequest := some ⟨1⟩},
  signed {getChainInfoRequest := some ⟨1⟩}]

theorem sampleTalkRefines :
    ∃ resps last, AnswersAll Sample.platform lockedHandler (fun _ => none) (sampleTalk.map Arrival.msg)
        resps last ∧
      List.Forall₂ (Conveys Sample.platform)
        ((history Sample.platform lockedHandler Manager.emptyDirectory sampleTalk).map Prod.fst) resps ∧
      Stands Sample.platform lockedHandler.manager sampleTalk.length last
        (served Sample.platform lockedHandler Manager.emptyDirectory sampleTalk) :=
  serverRefinesLedgers Sample.headerLawful Sample.blockLawful (wireLawful IPC.Response.schemaSound)
    lockedHandler Manager.emptyDirectory (fun _ => rfl) sampleTalk (by decide) (by decide +kernel)

end Table
end Handler
end ChainDB
