import ChainDB.Handler
import ChainDB.Hashing
import ChainDB.Isolation

/-! The password check in front of the handlers. -/
namespace ChainDB
open Effects ProtoWire

namespace Handler

def Authorized (sys : Platform) (handler : Handler) (req : IPC.Request) : Prop :=
  ∃ data, req.authData = some data ∧
    data.passwordHash = (sys.sha256 (PASSWORD_SALT ++ handler.password)).bytes

def Refused (status : Status) : Prop := status = .dataError ∨ status = .notAuthorized

def turnedAway (sys : Platform) (msg : Bytes) : IPC.Response :=
  match sys.request.parseFromString msg with
  | none => statusResponse .dataError (ascii "Can't parse data")
  | some req =>
    match req.authData with
    | none => statusResponse .notAuthorized (ascii "No authorization data")
    | some _ => statusResponse .notAuthorized (ascii "Invalid password")

section Gate
variable {sys : Platform} {handler : Handler}

theorem passwordFlatten (password : Bytes) :
    [PASSWORD_SALT,password].flatten = PASSWORD_SALT ++ password := by simp

theorem checkAuthSteady (data : IPC.AuthData) : Steady (checkAuth sys handler data) :=
  steadyBind (steadyCheck _) fun _ => steadyBind (SHA256.hashTame sys _).toSteady fun _ => steadyCheck _

theorem checkAuthSees {seen : Path → Prop} (data : IPC.AuthData) :
    Sees seen (checkAuth sys handler data) :=
  Exec.alikeBind (Exec.alikeCheck _) fun _ => Exec.alikeBind (localHash sys _) fun _ =>
    Exec.alikeCheck _

theorem checkAuthDone {data w u t} (h : checkAuth sys handler data w = (.done u,t)) :
    data.passwordHash = (sys.sha256 (PASSWORD_SALT ++ handler.password)).bytes := by
  simp only [checkAuth,Exec.bindDone,Exec.checkDone] at h
  obtain ⟨_,_,_,hash,_,hashed,same,_⟩ := h
  rw [← same,(SHA256.hashDone hashed).1,passwordFlatten]

theorem checkAuthHolds {data : IPC.AuthData} {w u : World} {hash : Hash}
    (own : data.passwordHash = (sys.sha256 (PASSWORD_SALT ++ handler.password)).bytes)
    (hashed : SHA256.getHash sys [PASSWORD_SALT,handler.password] w = (.done hash,u)) :
    checkAuth sys handler data w = (.done (),u) := by
  have same := (SHA256.hashDone hashed).1
  rw [passwordFlatten] at same
  have sized : data.passwordHash.length = 32 := by rw [own]; exact (sys.sha256 _).sized
  have equal : hash.bytes = data.passwordHash := by rw [same,own]
  unfold checkAuth
  rw [Exec.bindOfDone ((Exec.checkDone (u := ())).mpr ⟨sized,rfl⟩),Exec.bindOfDone hashed]
  exact Exec.checkDone.mpr ⟨equal,rfl⟩

theorem turnedAwayStatus (sys : Platform) (msg : Bytes) : ∃ (status : Status) (text : Bytes),
    Refused status ∧ text.length ≤ 21 ∧ turnedAway sys msg = statusResponse status text := by
  unfold turnedAway
  split
  · exact ⟨_,_,Or.inl rfl,by decide,rfl⟩
  · split
    · exact ⟨_,_,Or.inr rfl,by decide,rfl⟩
    · exact ⟨_,_,Or.inr rfl,by decide,rfl⟩

theorem checkAuthSpends {data : IPC.AuthData} {w u : World} {o : Outcome Halt Unit}
    (run : checkAuth sys handler data w = (o,u)) : ∃ n ≤ 4, ∀ k, u.draws k = w.draws (k + n) := by
  have none : ∃ n ≤ 4, ∀ k, w.draws k = w.draws (k + n) := ⟨0,Nat.zero_le 4,fun _ => rfl⟩
  by_cases sized : data.passwordHash.length = 32
  · have checked : (Exec.check (data.passwordHash.length = 32) : Action Unit) w = (.done (),w) :=
      Exec.checkDone.mpr ⟨sized,rfl⟩
    rw [checkAuth,Exec.bindOfDone checked] at run
    rcases hashed : SHA256.getHash sys [PASSWORD_SALT,handler.password] w with ⟨hash | _ | e,v⟩
    · obtain ⟨n,few,spent⟩ := (SHA256.hashTakes sys [PASSWORD_SALT,handler.password]).spends hashed
      have same : u = v := by
        rw [Exec.bindOfDone hashed] at run
        unfold Exec.check at run
        split at run <;> cases run <;> rfl
      exact ⟨n,few,fun k => by rw [same,spent]⟩
    · obtain ⟨n,few,spent⟩ := (SHA256.hashTakes sys [PASSWORD_SALT,handler.password]).spends hashed
      rw [Exec.bindOfAbsent hashed] at run
      cases run
      exact ⟨n,few,spent⟩
    · exact absurd hashed ((SHA256.hashTame sys _).toSteady.total w e v)
  · have checked : (Exec.check (data.passwordHash.length = 32) : Action Unit) w = (.absent,w) :=
      Exec.checkAbsent.mpr ⟨sized,rfl⟩
    rw [checkAuth,Exec.bindOfAbsent checked] at run
    cases run
    exact none

theorem strangerRun (locked : handler.password ≠ []) {msg : Bytes}
    (stranger : ∀ req, sys.request.parseFromString msg = some req → ¬ Authorized sys handler req) :
    ∃ guard : Action Unit, (∀ seen, Sees seen guard) ∧
      (∀ w, ∃ u, guard w = (.done (),u) ∧ Quiet w u ∧
        ∃ n ≤ 4, ∀ k, u.draws k = w.draws (k + n)) ∧
      ∀ w, handleMessage sys handler msg w =
        (guard >>= fun _ => makeResponse sys (turnedAway sys msg)) w := by
  have still : ∀ w : World, ∃ u, (pure () : Action Unit) w = (.done (),u) ∧ Quiet w u ∧
      ∃ n ≤ 4, ∀ k, u.draws k = w.draws (k + n) :=
    fun w => ⟨w,rfl,Std.Refl.refl w,0,Nat.zero_le 4,fun _ => rfl⟩
  unfold handleMessage turnedAway
  cases parsed : sys.request.parseFromString msg with
  | none => exact ⟨pure (),fun _ => Exec.alikePure _,still,fun _ => rfl⟩
  | some req =>
    simp only [if_pos locked]
    cases carried : req.authData with
    | none => exact ⟨pure (),fun _ => Exec.alikePure _,still,fun _ => rfl⟩
    | some data =>
      have steady := @checkAuthSteady sys handler data
      have fails : ∀ w, ∃ u, checkAuth sys handler data w = (.absent,u) := by
        intro w
        rcases run : checkAuth sys handler data w with ⟨_ | _ | e,u⟩
        · exact absurd ⟨data,carried,checkAuthDone run⟩ (stranger req parsed)
        · exact ⟨u,rfl⟩
        · exact absurd run (steady.total w e u)
      refine ⟨(do let _ ← Exec.attempt (checkAuth sys handler data)),fun _ =>
        Exec.alikeBind (Exec.alikeAttempt (checkAuthSees data)) fun _ => Exec.alikePure (),
        fun w => ?_,fun w => ?_⟩
      · obtain ⟨u,run⟩ := fails w
        exact ⟨u,Exec.bindOfDone (Exec.attemptNone.mpr run),steady.quiet.apply run,checkAuthSpends run⟩
      · obtain ⟨u,run⟩ := fails w
        dsimp only
        rw [Exec.bindOfDone (Exec.attemptNone.mpr run),Exec.bindAssoc,
          Exec.bindOfDone (Exec.attemptNone.mpr run)]
        rfl

theorem authorizedRun {msg : Bytes} {req : IPC.Request} {w u : World} {hash : Hash}
    (parsed : sys.request.parseFromString msg = some req) (allowed : Authorized sys handler req)
    (locked : handler.password ≠ [])
    (hashed : SHA256.getHash sys [PASSWORD_SALT,handler.password] w = (.done hash,u)) :
    handleMessage sys handler msg w = dispatch sys handler req u := by
  obtain ⟨data,carried,own⟩ := allowed
  simp only [handleMessage,parsed,if_pos locked,carried]
  rw [Exec.bindOfDone (Exec.attemptSome.mpr (checkAuthHolds own hashed))]

end Gate

theorem statusLength (status : Status) (text : Bytes) :
    (IPC.Response.schema.encode (statusResponse status text)).length ≤ text.length + 33 := by
  have code := uintLe (show 1 < 16 by decide) status.code.toNat
  have words := blobLe (show 2 < 16 by decide) text
  have inner : (IPC.StatusResponse.schema.encode ⟨status.code,text⟩).length ≤ text.length + 22 := by
    simp only [Schema.encode,IPC.StatusResponse.schema,encodeAppendLength]
    omega
  have outer := framedLe (IPC.StatusResponse.schema.encode ⟨status.code,text⟩).length
  simp only [IPC.responseLength,statusResponse,partSizeNone,partSizeSome]
  omega

/- A reply that is `resp` if it is one at all. There is none if the serialiser fails, which it is asked
for after at most four calls of other primitives. -/
def Replies (sys : Platform) (draws : Draws) (resp : IPC.Response) (o : Outcome Halt Bytes) : Prop :=
  o = .done (sys.response.encode resp) ∨ o = .absent ∧
    ((∃ n ≤ 4, (draws n).ok .serialise = false) ∨ maxMessageLength < (sys.response.encode resp).length)

theorem Replies.reply {sys : Platform} {draws : Draws} {resp : IPC.Response} {o : Outcome Halt Bytes}
    (replies : Replies sys draws resp o) (works : ∀ n ≤ 4, (draws n).ok .serialise = true)
    (fits : (sys.response.encode resp).length ≤ maxMessageLength) : o = .done (sys.response.encode resp) := by
  obtain done | ⟨_,⟨n,few,failed⟩ | long⟩ := replies
  · exact done
  · rw [works n few] at failed
    cases failed
  · exact absurd fits (Nat.not_le.mpr long)

theorem dispatchPassword (sys : Platform) (manager : Manager) (p q : Bytes) (req : IPC.Request) :
    dispatch sys ⟨manager,p⟩ req = dispatch sys ⟨manager,q⟩ req := rfl

theorem passwordGateAdmitsNothingElse (sys : Platform) (handler : Handler)
    (locked : handler.password ≠ []) (msg : Bytes) :
    ((∀ req, sys.request.parseFromString msg = some req → ¬ Authorized sys handler req) →
      (∃ status text, Refused status ∧ turnedAway sys msg = statusResponse status text) ∧
      ∀ dir dir' draws,
        (handleMessage sys handler msg (start dir draws)).1 =
            (handleMessage sys handler msg (start dir' draws)).1 ∧
          (handleMessage sys handler msg (start dir draws)).2.directory = dir ∧
          Replies sys draws (turnedAway sys msg) (handleMessage sys handler msg (start dir draws)).1 ∧
          (sys.response = wireCodec IPC.Response.schema → (∀ n ≤ 4, (draws n).ok .serialise = true) →
            (handleMessage sys handler msg (start dir draws)).1 =
              .done (sys.response.encode (turnedAway sys msg)))) ∧
    ∀ req, sys.request.parseFromString msg = some req → Authorized sys handler req →
      ∀ dir draws, (∀ n < 4, (draws n).ok .hash = true) →
        handleMessage sys handler msg (start dir draws) = handleMessage sys ⟨handler.manager,[]⟩ msg
          ((start dir draws).later 4 [PASSWORD_SALT ++ handler.password]) := by
  constructor
  · intro stranger
    obtain ⟨status,text,refused,short,answer⟩ := turnedAwayStatus sys msg
    refine ⟨⟨status,text,refused,answer⟩,fun dir dir' draws => ?_⟩
    obtain ⟨guard,blind,present,same⟩ := strangerRun locked stranger
    have alike : Sees (fun _ => False) (guard >>= fun _ => makeResponse sys (turnedAway sys msg)) :=
      Exec.alikeBind (blind _) fun _ => localSerialize _ _
    obtain ⟨u,run,quiet,n,few,spent⟩ := present (start dir draws)
    have replies : Replies sys draws (turnedAway sys msg)
        (handleMessage sys handler msg (start dir draws)).1 := by
      rw [same,Exec.bindOfDone run]
      refine (serializeOutcome sys.response (turnedAway sys msg) u).imp_right fun null => ?_
      refine ⟨null.1,null.2.imp_left fun failed => ⟨n,few,?_⟩⟩
      rw [spent,Nat.zero_add] at failed
      exact failed
    refine ⟨?_,?_,replies,fun wire works => replies.reply works ?_⟩
    · rw [same,same]
      exact (alike (start dir draws) (start dir' draws) ⟨nofun,rfl,rfl,rfl,rfl⟩).1
    · rw [same,Exec.bindOfDone run]
      have last := (serializeTame sys.response (turnedAway sys msg)).quiet u
      exact last.directory.trans quiet.directory
    · have size := statusLength status text
      rw [answer,wire]
      change (IPC.Response.schema.encode _).length ≤ 2^31 - 1
      omega
  · intro req parsed allowed dir draws hashing
    have hashed := (SHA256.hashTakes sys [PASSWORD_SALT,handler.password]).succeeds (start dir draws) hashing
    rw [passwordFlatten] at hashed
    rw [authorizedRun parsed allowed locked hashed,handleMessage,parsed]
    simp only [ne_eq,not_true_eq_false,if_false]
    exact congrFun (dispatchPassword sys handler.manager handler.password [] req) _

def sampleHandler : Handler := ⟨⟨[]⟩,ascii "q"⟩

def samplePing : IPC.Request :=
  {authData := some ⟨(Sample.sha256 (ascii "EMPTY_SALT/q")).bytes⟩, pingRequest := some {}}

theorem gateOfSampleHandler :
    (handleMessage Sample.platform sampleHandler [] (start Manager.emptyDirectory (Sample.steady 1))).1 =
      (handleMessage Sample.platform sampleHandler []
        (start (Manager.run Sample.platform ⟨[]⟩ Manager.emptyDirectory Manager.sampleCalls).2
          (Sample.steady 1))).1 ∧
    ∃ u, handleMessage Sample.platform sampleHandler (Sample.platform.request.encode samplePing)
        (start Manager.emptyDirectory (Sample.steady 1)) =
      handleMessage Sample.platform ⟨⟨[]⟩,[]⟩ (Sample.platform.request.encode samplePing) u := by
  have gate := fun msg => passwordGateAdmitsNothingElse Sample.platform sampleHandler (by decide) msg
  have parsed : Sample.platform.request.parseFromString (Sample.platform.request.encode samplePing) =
      some samplePing := Sample.requestLawful _ (by decide +kernel)
  refine ⟨(((gate []).1 fun req parsed allowed => ?_).2 _ _ _).1,?_⟩
  · cases Option.some.inj parsed
    obtain ⟨_,carried,_⟩ := allowed
    cases carried
  · exact ⟨_,(gate _).2 samplePing parsed ⟨_,rfl,by decide +kernel⟩ Manager.emptyDirectory
      (Sample.steady 1) fun _ _ => rfl⟩

end Handler
end ChainDB
