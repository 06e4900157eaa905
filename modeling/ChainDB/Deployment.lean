import ChainDB.Network
import ChainDB.Service

/-! The whole of it: clients that send messages over the network to one server of chains. What comes
back to them is what a table of append-only lists answers, one request at a time. -/
namespace ChainDB
open Effects Transition Network

namespace Handler

structure Memory where
  directory : Directory
  future : Nat → Draws

def Memory.next (memory : Memory) (directory : Directory) : Memory :=
  ⟨directory,fun n => memory.future (n + 1)⟩

def replyOf : Outcome Halt Bytes → Option Bytes
  | .done reply => some reply
  | _ => none

/- A call that stops the program leaves its client, and every later one, without a reply. -/
def service (sys : Platform) (handler : Handler) : IHandler Memory :=
  ⟨fun memory msg =>
    let ran := handleMessage sys handler msg (start memory.directory (memory.future 0))
    (replyOf ran.1,memory.next ran.2.directory)⟩

def arrivalsOf : (Nat → Draws) → List Bytes → List Arrival
  | _,[] => []
  | future,msg :: rest => ⟨msg,future 0⟩ :: arrivalsOf (fun n => future (n + 1)) rest

section Memory
variable {sys : Platform} {handler : Handler}

theorem arrivalMessages (future : Nat → Draws) (requests : List Bytes) :
    (arrivalsOf future requests).map Arrival.msg = requests := by
  induction requests generalizing future with
  | nil => rfl
  | cons msg rest ih => rw [arrivalsOf,List.map_cons,ih]

theorem arrivalCount (future : Nat → Draws) (requests : List Bytes) :
    (arrivalsOf future requests).length = requests.length := by
  rw [← List.length_map Arrival.msg,arrivalMessages]

theorem handledDirectory (memory : Memory) (requests : List Bytes) :
    (handledAll (service sys handler) memory requests).directory =
      served sys handler memory.directory (arrivalsOf memory.future requests) := by
  induction requests generalizing memory with
  | nil => rfl
  | cons msg rest ih => exact ih _

theorem answerHistory (memory : Memory) (requests : List Bytes) (place : Nat) :
    answerAt (service sys handler) memory requests place =
      ((history sys handler memory.directory (arrivalsOf memory.future requests))[place]?).bind
        fun handled => replyOf handled.1 := by
  induction requests generalizing memory place with
  | nil => rfl
  | cons msg rest ih =>
    cases place with
    | zero => rfl
    | succ place =>
      exact ih (memory.next (after sys handler ⟨msg,memory.future 0⟩ memory.directory)) place

theorem conveyedAt {outcomes : List (Outcome Halt Bytes)} {resps : List IPC.Response}
    (conveys : List.Forall₂ (Conveys sys) outcomes resps) {place : Nat} {outcome : Outcome Halt Bytes}
    (here : outcomes[place]? = some outcome) :
    ∃ resp, resps[place]? = some resp ∧ Conveys sys outcome resp := by
  induction conveys generalizing place with
  | nil => cases here
  | cons first later ih =>
    cases place with
    | zero =>
      cases here
      exact ⟨_,rfl,first⟩
    | succ place => exact ih here

theorem requestAt {σ : Type} {net : State σ} {place k : Nat} {session : Session}
    (requests : net.order.map net.requestOf = net.requests.map some) (at_ : net.order[place]? = some k)
    (here : net.session k = some session) : net.requests[place]? = some session.request := by
  have asked := congrArg (fun list => list[place]?) requests
  simp only [List.getElem?_map,at_,Option.map_some,State.requestOf,here] at asked
  obtain ⟨request,found,same⟩ := Option.map_eq_some_iff.mp asked.symm
  cases same
  exact found

end Memory

/- What the clients of a server see: each reply that came back is the answer that the table gave at a
moment between the sending of its request and the return of its call. A call that got no reply may have
been served as well, then or later. -/
structure Consistent (sys : Platform) (handler : Handler) (memory : Memory) (store : Store)
    (net : State Memory) (bound : Nat) (resps : List IPC.Response) (last : Store) : Prop where
  answers : AnswersAll sys handler store net.requests resps last
  conveys : List.Forall₂ (Conveys sys)
    ((history sys handler memory.directory (arrivalsOf memory.future net.requests)).map Prod.fst) resps
  stands : Stands sys handler.manager bound last net.server.handler.directory
  once : net.order.Nodup
  asked : net.order.map net.requestOf = net.requests.map some
  began : ∀ place k session, net.order[place]? = some k → net.session k = some session →
    session.began ≤ place
  received : ∀ k session reply time, net.session k = some session →
    session.result = some (some reply,time) → ∃ place resp, net.order[place]? = some k ∧
      session.began ≤ place ∧ place < time ∧ net.requests[place]? = some session.request ∧
      resps[place]? = some resp ∧ sys.response.parseFromString reply = some resp

section Deployed
variable {sys : Platform} {handler : Handler} {memory : Memory} {bound : Nat} {store last : Store}
  {net : State Memory} {resps : List IPC.Response}

theorem receivedAnswer {place : Nat} {reply : Bytes}
    (conveys : List.Forall₂ (Conveys sys)
      ((history sys handler memory.directory (arrivalsOf memory.future net.requests)).map Prod.fst) resps)
    (answer : answerAt (service sys handler) memory net.requests place = some reply) :
    ∃ resp, resps[place]? = some resp ∧ sys.response.parseFromString reply = some resp := by
  rw [answerHistory] at answer
  obtain ⟨handled,found,said⟩ := Option.bind_eq_some_iff.mp answer
  obtain ⟨resp,told,value,done,parsed⟩ := conveyedAt conveys (by rw [List.getElem?_map,found]; rfl)
  rw [done] at said
  cases said
  exact ⟨resp,told,parsed⟩

theorem linearizedConsistent (linear : Linearized (service sys handler) memory net)
    (answers : AnswersAll sys handler store net.requests resps last)
    (conveys : List.Forall₂ (Conveys sys)
      ((history sys handler memory.directory (arrivalsOf memory.future net.requests)).map Prod.fst) resps)
    (stands : Stands sys handler.manager bound last net.server.handler.directory) :
    Consistent sys handler memory store net bound resps last where
  answers := answers
  conveys := conveys
  stands := stands
  once := linear.once
  asked := linear.requests
  began := linear.began
  received k session reply time here returned := by
    obtain ⟨place,at_,before,answer⟩ := linear.answered k session reply time here returned
    obtain ⟨resp,told,parsed⟩ := receivedAnswer conveys answer
    exact ⟨place,resp,at_,linear.began place k session at_ here,before,
      requestAt linear.requests at_ here,told,parsed⟩

theorem Stands.serves (lawfulHeader : sys.header.Lawful) (lawfulBlock : sys.block.Lawful)
    (lawful : sys.response.Lawful) (stands : Stands sys handler.manager bound store memory.directory)
    (linear : Linearized (service sys handler) memory net)
    (few : bound + net.requests.length < 2^64 - 1)
    (clean : ∀ handled ∈ history sys handler memory.directory (arrivalsOf memory.future net.requests),
      handled.2.failed = false) :
    ∃ resps last, AnswersAll sys handler store net.requests resps last ∧
      List.Forall₂ (Conveys sys)
        ((history sys handler memory.directory (arrivalsOf memory.future net.requests)).map Prod.fst) resps ∧
      Stands sys handler.manager (bound + net.requests.length) last net.server.handler.directory := by
  obtain ⟨resps,last,answers,conveys,ends⟩ :=
    stands.run lawfulHeader lawfulBlock lawful (by rwa [arrivalCount]) clean
  rw [arrivalMessages] at answers
  rw [arrivalCount,← handledDirectory,← linear.state] at ends
  exact ⟨resps,last,answers,conveys,ends⟩

end Deployed

theorem clientsSeeLedgers {sys : Platform} (lawfulHeader : sys.header.Lawful)
    (lawfulBlock : sys.block.Lawful) (lawful : sys.response.Lawful) (handler : Handler) (memory : Memory)
    (bound : Nat) (store : Store) (stands : Stands sys handler.manager bound store memory.directory)
    (labels : List Label) (net : State Memory)
    (ran : run (Network.step (service sys handler)) (opened memory) labels = some net)
    (few : bound + net.requests.length < 2^64 - 1)
    (clean : ∀ handled ∈ history sys handler memory.directory (arrivalsOf memory.future net.requests),
      handled.2.failed = false) :
    ∃ resps last, Consistent sys handler memory store net (bound + net.requests.length) resps last := by
  have linear := (runOrderly ran).linearized
  obtain ⟨resps,last,answers,conveys,ends⟩ :=
    stands.serves lawfulHeader lawfulBlock lawful linear few clean
  exact ⟨resps,last,linearizedConsistent linear answers conveys ends⟩

def sampleMemory : Memory := ⟨Manager.emptyDirectory,fun _ => Sample.steady 1⟩

def awaiting (resp : IPC.Response) : Client.Calls := patient (Sample.platform.response.encode resp)

def sampleInfo : IPC.Response := {success with getChainInfoResponse := some ⟨1,1,0⟩}

def sampleCalls : List Label := [
  .send someClient (awaiting (failure "Can't get chain info")) (signed {getChainInfoRequest := some ⟨1⟩}).msg,
  .send someClient (awaiting success) (signed createRequest).msg,
  .serve 1 ⟨.input (signed createRequest).msg,true,true,true,true⟩,.finish 1,
  .send someClient (awaiting sampleInfo) (signed {getChainInfoRequest := some ⟨1⟩}).msg,
  .serve 2 ⟨.input (signed {getChainInfoRequest := some ⟨1⟩}).msg,true,true,true,true⟩,.finish 2,.lose 0]

theorem sampleCallsConsistent : ∃ net,
    run (Network.step (service Sample.platform lockedHandler)) (opened sampleMemory) sampleCalls = some net ∧
      ∃ resps last, Consistent Sample.platform lockedHandler sampleMemory (fun _ => none) net
        (0 + net.requests.length) resps last :=
  ⟨_,Option.eq_some_of_isSome (by decide +kernel),
    clientsSeeLedgers Sample.headerLawful Sample.blockLawful (wireLawful IPC.Response.schemaSound)
      lockedHandler sampleMemory 0 (fun _ => none) (fun _ => ⟨0,Nat.le_refl 0,rfl⟩) sampleCalls _
      (Option.eq_some_of_isSome (by decide +kernel)) (by decide +kernel) (by decide +kernel)⟩

end Handler
end ChainDB
