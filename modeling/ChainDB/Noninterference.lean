import ChainDB.Deployment
import ChainDB.Library.Projection

/-! What the clients of one chain can learn of the rest of a server. The database of a chain, and every
reply about it, depends on the admitted messages that change that chain, and on nothing else that is
sent by anyone. -/
namespace ChainDB
open Effects Transition Network

namespace Handler

/- The message leads to a creation or removal of the chain or to an append to it. -/
def changes (sys : Platform) (handler : Handler) (chainId : UInt64) (arrival : Arrival) : Bool :=
  match callOf sys handler arrival with
  | some call => decide (call.chainId = chainId ∧ ¬ call.operation.Reads)
  | none => false

def Concerns (sys : Platform) (handler : Handler) (chainId : UInt64) (arrival : Arrival) : Prop :=
  ∀ call, callOf sys handler arrival = some call → call.chainId = chainId

section Part
variable {sys : Platform} {handler : Handler} {chainId : UInt64} {arrival : Arrival} {dir dir' : Directory}

theorem afterConfines (sys : Platform) (handler : Handler) (chainId : UInt64) :
    Projection.Confines (fun dir arrival => after sys handler arrival dir)
      (fun dir => dir (handler.manager.makeStoragePath chainId)) (changes sys handler chainId) where
  leaves dir arrival idle := by
    rw [afterCall]
    unfold changes at idle
    cases leads : callOf sys handler arrival with
    | none => rfl
    | some call =>
      simp only [leads] at idle
      simp only [Option.elim]
      by_cases own : chainId = call.chainId
      · have reads : call.operation.Reads := by
          by_contra writes
          exact of_decide_eq_false idle ⟨own.symm,writes⟩
        exact congrFun (Manager.readsQuiet sys handler.manager call.chainId reads
          (start dir call.draws)).directory _
      · exact Manager.afterElsewhere own
  decides dir dir' arrival touched same := by
    rw [afterCall,afterCall]
    unfold changes at touched
    cases leads : callOf sys handler arrival with
    | none => exact same
    | some call =>
      simp only [leads] at touched
      obtain ⟨own,_⟩ := of_decide_eq_true touched
      subst own
      exact (Manager.effectLocal same).2

theorem databaseConfined (same : dir (handler.manager.makeStoragePath chainId) =
      dir' (handler.manager.makeStoragePath chainId)) {arrivals others : List Arrival}
    (past : arrivals.filter (changes sys handler chainId) = others.filter (changes sys handler chainId)) :
    served sys handler dir arrivals (handler.manager.makeStoragePath chainId) =
      served sys handler dir' others (handler.manager.makeStoragePath chainId) :=
  (afterConfines sys handler chainId).agree same past

theorem replyConfined (concerns : Concerns sys handler chainId arrival)
    (same : dir (handler.manager.makeStoragePath chainId) =
      dir' (handler.manager.makeStoragePath chainId)) :
    (handleMessage sys handler arrival.msg (start dir arrival.draws)).1 =
      (handleMessage sys handler arrival.msg (start dir' arrival.draws)).1 := by
  have responds : ∀ resp, Local (handler.manager.makeStoragePath chainId) (makeResponse sys resp) :=
    fun resp => localSerialize sys.response resp
  have begins : SameOn (fun other => other = handler.manager.makeStoragePath chainId)
      (start dir arrival.draws) (start dir' arrival.draws) := ⟨fun _ own => own ▸ same,rfl,rfl,rfl,rfl⟩
  cases parsed : sys.request.parseFromString arrival.msg with
  | none =>
    simp only [handleMessage,parsed]
    exact (responds _ _ _ begins).1
  | some req =>
    rw [handleGated parsed]
    obtain ⟨outcome,world⟩ := @gateSees sys handler req _ _ _ begins
    rcases passed : gate sys handler req (start dir arrival.draws) with ⟨⟨⟩ | _ | e,u⟩
    · rw [passed] at outcome world
      have passed' := Exec.outcomeApply outcome.symm
      rw [Exec.bindOfDone (Exec.attemptSome.mpr passed),Exec.bindOfDone (Exec.attemptSome.mpr passed')]
      cases plan : planOf req with
      | reply resp => exact (responds resp _ _ world).1
      | call other operation answer =>
        have own : other = chainId := concerns _ (callOfGate parsed passed plan)
        subst own
        have alike : Local (handler.manager.makeStoragePath other)
            (follow sys handler (.call other operation answer)) :=
          Exec.alikeBind (Manager.performLocal sys handler.manager other operation) fun result =>
            responds (answer result)
        exact (alike _ _ world).1
    · rw [passed] at outcome world
      have passed' := Exec.outcomeApply outcome.symm
      rw [Exec.bindOfDone (Exec.attemptNone.mpr passed),Exec.bindOfDone (Exec.attemptNone.mpr passed')]
      exact (responds (refusalOf req) _ _ world).1
    · exact absurd passed (gateSteady.total _ e u)

end Part

theorem historyAt (sys : Platform) (handler : Handler) (dir : Directory) (arrivals : List Arrival)
    (place : Nat) : (history sys handler dir arrivals)[place]? = arrivals[place]?.map fun arrival =>
      handleMessage sys handler arrival.msg
        (start (served sys handler dir (arrivals.take place)) arrival.draws) := by
  induction arrivals generalizing dir place with
  | nil => rfl
  | cons arrival rest ih =>
    cases place with
    | zero => rfl
    | succ place => exact ih (after sys handler arrival dir) place

/-- A client was answered with `reply` to the message at a place of the server's sequence. -/
structure Observed (memory : Memory) (net : State Memory) (place : Nat) (arrival : Arrival)
    (before : List Arrival) (reply : Bytes) : Prop where
  arrives : (arrivalsOf memory.future net.requests)[place]? = some arrival
  earlier : (arrivalsOf memory.future net.requests).take place = before
  answered : ∃ k session time, net.order[place]? = some k ∧ net.session k = some session ∧
    session.result = some (some reply,time)

theorem Observed.reply {sys : Platform} {handler : Handler} {memory : Memory} {net : State Memory}
    {place : Nat} {arrival : Arrival} {before : List Arrival} {reply : Bytes}
    (observed : Observed memory net place arrival before reply) {labels : List Label}
    (ran : run (Network.step (service sys handler)) (opened memory) labels = some net) :
    replyOf (handleMessage sys handler arrival.msg
      (start (served sys handler memory.directory before) arrival.draws)).1 = some reply := by
  have linear := (runOrderly ran).linearized
  obtain ⟨k,session,time,at_,here,result⟩ := observed.answered
  obtain ⟨other,again,_,answer⟩ := linear.answered k session reply time here result
  have same : other = place := by
    obtain ⟨inside,_⟩ := List.getElem?_eq_some_iff.mp again
    exact (List.getElem?_inj inside linear.once).mp (again.trans at_.symm)
  subst same
  rw [answerHistory,historyAt,observed.arrives,observed.earlier] at answer
  exact answer

/- Two servers, each with its own clients, orders of arrival, lost messages and time-outs. If the same
messages have changed a chain, and their primitives had the same outcomes, then the same message about it,
again with the same outcomes, is answered alike, whatever was said of other chains, read, refused or not
understood in between. -/
theorem chainsTellNothingElse (sys : Platform) (handler : Handler) (chainId : UInt64)
    (memory memory' : Memory) (same : memory.directory (handler.manager.makeStoragePath chainId) =
      memory'.directory (handler.manager.makeStoragePath chainId)) (labels labels' : List Label)
    (net net' : State Memory)
    (ran : run (Network.step (service sys handler)) (opened memory) labels = some net)
    (ran' : run (Network.step (service sys handler)) (opened memory') labels' = some net')
    (place place' : Nat) (arrival : Arrival) (before before' : List Arrival) (reply reply' : Bytes)
    (observed : Observed memory net place arrival before reply)
    (observed' : Observed memory' net' place' arrival before' reply')
    (concerns : Concerns sys handler chainId arrival)
    (past : before.filter (changes sys handler chainId) = before'.filter (changes sys handler chainId)) :
    reply = reply' := by
  have database := databaseConfined same past
  have first := observed.reply ran
  rw [replyConfined concerns database] at first
  exact Option.some.inj (first.symm.trans (observed'.reply ran'))

def answerTo (net : State Memory) (k : Nat) : Option Bytes :=
  (net.session k).bind fun session => session.result.bind Prod.fst

theorem answerToSome {net : State Memory} {k : Nat} {reply : Bytes} (told : answerTo net k = some reply) :
    ∃ session time, net.session k = some session ∧ session.result = some (some reply,time) := by
  obtain ⟨session,here,got⟩ := Option.bind_eq_some_iff.mp told
  obtain ⟨⟨_,time⟩,result,rfl⟩ := Option.bind_eq_some_iff.mp got
  exact ⟨session,time,here,result⟩

def askInfo : Bytes := (signed {getChainInfoRequest := some ⟨1⟩}).msg

def exchangeOf (k : Nat) (msg reply : Bytes) : List Label := [
  .send someClient (patient reply) msg,.serve k ⟨.input msg,true,true,true,true⟩,.finish k]

def quietCalls : List Label :=
  exchangeOf 0 (signed createRequest).msg (Sample.platform.response.encode success) ++
    exchangeOf 1 askInfo (Sample.platform.response.encode sampleInfo)

def busyCalls : List Label :=
  exchangeOf 0 [255] (Sample.platform.response.encode unparsed) ++
    exchangeOf 1 (signed createRequest).msg (Sample.platform.response.encode success) ++
    exchangeOf 2 (arrivalOf {removeChainRequest := some ⟨1⟩}).msg
      (Sample.platform.response.encode (refusalOf {removeChainRequest := some ⟨1⟩})) ++
    [.send someClient hasty (signed {createChainRequest := some ⟨2,ascii "\x7b\x7d"⟩}).msg,
      .send someClient hasty (signed verifyRequest).msg,
      .serve 4 ⟨.input (signed verifyRequest).msg,true,true,true,true⟩,
      .serve 3 ⟨.input (signed {createChainRequest := some ⟨2,ascii "\x7b\x7d"⟩}).msg,true,true,true,true⟩] ++
    exchangeOf 5 askInfo (Sample.platform.response.encode sampleInfo)

def netOf (labels : List Label) : Option (State Memory) :=
  run (Network.step (service Sample.platform lockedHandler)) (opened sampleMemory) labels

def quietNet : State Memory := (netOf quietCalls).get (by decide +kernel)

def busyNet : State Memory := (netOf busyCalls).get (by decide +kernel)

def quietReply : Bytes := (answerTo quietNet 1).get (by decide +kernel)

def busyReply : Bytes := (answerTo busyNet 5).get (by decide +kernel)

def arriving (msg : Bytes) : Arrival := ⟨msg,Sample.steady 1⟩

theorem arrivalsSteady (requests : List Bytes) :
    arrivalsOf sampleMemory.future requests = requests.map arriving := by
  induction requests with
  | nil => rfl
  | cons msg rest ih => exact congrArg (List.cons (arriving msg)) ih

theorem observedSteady {net : State Memory} {place k : Nat} {msg reply : Bytes}
    (asked : net.requests[place]? = some msg) (served : net.order[place]? = some k)
    (told : answerTo net k = some reply) : Observed sampleMemory net place (arriving msg)
      ((net.requests.take place).map arriving) reply := by
  obtain ⟨session,time,here,result⟩ := answerToSome told
  refine ⟨?_,?_,k,session,time,served,here,result⟩
  · rw [arrivalsSteady,List.getElem?_map,asked]
    rfl
  · rw [arrivalsSteady,List.map_take]

theorem busyServerTellsNothing : quietReply = busyReply := by
  have quiet : Observed sampleMemory quietNet 1 (arriving askInfo) _ quietReply :=
    observedSteady (by decide +kernel) (by decide +kernel : quietNet.order[1]? = some 1)
      (Option.some_get _).symm
  have busy : Observed sampleMemory busyNet 5 (arriving askInfo) _ busyReply :=
    observedSteady (by decide +kernel) (by decide +kernel : busyNet.order[5]? = some 5)
      (Option.some_get _).symm
  refine chainsTellNothingElse Sample.platform lockedHandler 1 sampleMemory sampleMemory rfl quietCalls
    busyCalls quietNet busyNet (Option.some_get _).symm (Option.some_get _).symm 1 5 _ _ _ _ _ quiet busy
    (fun call leads => ?_) ?_
  · have one : (callOf Sample.platform lockedHandler (arriving askInfo)).map Manager.Call.chainId = some 1 := by
      decide +kernel
    rw [leads] at one
    exact Option.some.inj one
  · rw [List.filter_map,List.filter_map]
    exact congrArg (List.map arriving) (by decide +kernel)

end Handler
end ChainDB
