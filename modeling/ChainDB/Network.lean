import ChainDB.Library.Transition
import ChainDB.Client

/-! One server and any number of clients. The network may hold a request back for any time, lose it, or
lose a reply with the client that waited for it; each call of `sendMessage` has its own socket, so
no reply reaches another call. -/
namespace ChainDB
open Effects Transition

namespace Network
open Zmq

/- One call of `sendMessage` whose request went out. `began` and the number in `result` are ghosts: how
many requests the server had received at that time. -/
structure Session where
  client : Client
  calls : Client.Calls
  request : Bytes
  queued : Bool
  reply : Option Bytes
  began : Nat
  result : Option (Option Bytes × Nat)

/-- `order` is a ghost: the sessions whose requests were received, the oldest first. -/
structure State (σ : Type) where
  server : Server.State σ
  running : Bool
  sessions : List Session
  order : List Nat

inductive Label where
  | send (client : Client) (calls : Client.Calls) (request : Bytes)
  | lose (k : Nat)
  | serve (k : Nat) (round : Round)
  | rest (round : Round)
  | finish (k : Nat)

variable {σ : Type}

def opened (h : σ) : State σ := ⟨⟨RepSocket.opened,h⟩,true,[],[]⟩

def State.session (net : State σ) (k : Nat) : Option Session := net.sessions[k]?

def State.update (net : State σ) (k : Nat) (session : Session) : State σ :=
  {net with sessions := net.sessions.set k session}

def State.take (net : State σ) (k : Nat) (session : Session) (reply : Option Bytes) : State σ :=
  {net.update k {session with queued := false,reply := reply} with order := net.order ++ [k]}

def lastReply (socket : RepSocket) : Option Bytes :=
  socket.exchanges.head?.bind fun exchange => exchange.replies.head?

def serve (handler : IHandler σ) (net : State σ) (k : Nat) (session : Session) (round : Round) : State σ :=
  let ran := Server.body handler round net.server
  let after := {net with server := ran.2,running := decide (ran.1 = .done ())}
  if ran.2.socket.exchanges.length = net.server.socket.exchanges.length then after
  else after.take k session (lastReply ran.2.socket)

def Brought (session : Session) : Poll → Bool
  | .input reply => decide (session.reply = some reply)
  | _ => true

def value : Outcome Client.Misuse Bytes → Option Bytes
  | .done reply => some reply
  | _ => none

def returned (session : Session) : Option Bytes :=
  value (Client.sendMessage session.calls session.client session.request ⟨fun _ => 0,[]⟩).1

def step (handler : IHandler σ) : Step (State σ) Label
  | net,.send client calls request =>
    if calls.ctxNew = true ∧ calls.socket = true ∧ Client.Transmits calls client then
      some {net with
        sessions := net.sessions ++ [⟨client,calls,request,true,none,net.order.length,none⟩]}
    else none
  | net,.lose k =>
    (net.session k).bind fun session =>
      if session.queued = true then some (net.update k {session with queued := false}) else none
  | net,.serve k round =>
    (net.session k).bind fun session =>
      if net.running = true ∧ session.queued = true ∧ round.poll = .input session.request then
        some (serve handler net k session round)
      else none
  | net,.rest round =>
    if net.running = true ∧ (round.poll = .idle ∨ round.poll = .error) then
      let ran := Server.body handler round net.server
      some {net with server := ran.2,running := decide (ran.1 = .done ())}
    else none
  | net,.finish k =>
    (net.session k).bind fun session =>
      if session.result = none ∧ Brought session (session.calls.poll session.client.timeout) = true then
        some (net.update k {session with result := some (returned session,net.order.length)})
      else none

def State.log (net : State σ) : List Exchange := net.server.socket.exchanges.reverse

def State.requests (net : State σ) : List Bytes := net.log.map Exchange.request

def handledAll (handler : IHandler σ) (h : σ) (requests : List Bytes) : σ :=
  requests.foldl (fun h request => (handler.handleMessage h request).2) h

def answerAt (handler : IHandler σ) (h : σ) (requests : List Bytes) (place : Nat) : Option Bytes :=
  requests[place]?.bind fun request =>
    (handler.handleMessage (handledAll handler h (requests.take place)) request).1

def State.requestOf (net : State σ) (k : Nat) : Option Bytes := (net.session k).map Session.request

/- The clients see one sequence of requests, handled one at a time: each request at most once, at a
moment between its sending and the return of its call, and with the answer that the call returns. -/
structure Linearized (handler : IHandler σ) (h : σ) (net : State σ) : Prop where
  once : net.order.Nodup
  requests : net.order.map net.requestOf = net.requests.map some
  state : net.server.handler = handledAll handler h net.requests
  began : ∀ place k session, net.order[place]? = some k → net.session k = some session →
    session.began ≤ place
  answered : ∀ k session reply time, net.session k = some session →
    session.result = some (some reply,time) → ∃ place, net.order[place]? = some k ∧ place < time ∧
      answerAt handler h net.requests place = some reply

section Sequence
variable {handler : IHandler σ} {h : σ} {requests : List Bytes} {request : Bytes}

theorem handledSnoc : handledAll handler h (requests ++ [request]) =
    (handler.handleMessage (handledAll handler h requests) request).2 := by
  simp [handledAll]

theorem answerBefore {place : Nat} (below : place < requests.length) :
    answerAt handler h (requests ++ [request]) place = answerAt handler h requests place := by
  have cut : (requests ++ [request]).take place = requests.take place :=
    List.take_append_of_le_length (Nat.le_of_lt below)
  rw [answerAt,answerAt,List.getElem?_append_left below,cut]

theorem answerLast : answerAt handler h (requests ++ [request]) requests.length =
    (handler.handleMessage (handledAll handler h requests) request).1 := by
  rw [answerAt,List.getElem?_concat_length,List.take_left]
  rfl

end Sequence

section Round
variable {handler : IHandler σ} {round : Round} {s t : Server.State σ}

structure Received (handler : IHandler σ) (s : Server.State σ) (request : Bytes) (t : Server.State σ) :
    Prop where
  handled : t.handler = (handler.handleMessage s.handler request).2
  logged : ∃ replies, t.socket.exchanges = ⟨request,replies⟩ :: s.socket.exchanges ∧
    ∀ reply ∈ replies, (handler.handleMessage s.handler request).1 = some reply

theorem receiveMoves {request : Bytes} {o : Outcome Empty Bytes}
    (run : Server.receive round request s = (o,t)) :
    t = s ∧ o = .absent ∨ t = {s with socket := s.socket.receive request} ∧ o = .done request := by
  unfold Server.receive at run
  by_cases made : round.msgInit = true
  · by_cases got : round.msgRecv = true
    · simp only [Exec.check,made,got,if_true] at run
      cases run
      exact Or.inr ⟨rfl,rfl⟩
    · simp only [Exec.check,made,if_true,if_neg got] at run
      cases run
      exact Or.inl ⟨rfl,rfl⟩
  · simp only [Exec.check,if_neg made] at run
    cases run
    exact Or.inl ⟨rfl,rfl⟩

theorem replyMoves {resp : Bytes} {o : Outcome Empty Unit} (run : Server.reply round resp s = (o,t)) :
    t = s ∨ t = {s with socket := s.socket.send resp} := by
  unfold Server.reply at run
  by_cases made : round.msgInitSize = true
  · simp only [Exec.check,made,if_true] at run
    cases run
    by_cases sent : round.msgSend = true
    · exact Or.inr (if_pos sent)
    · exact Or.inl (if_neg sent)
  · simp only [Exec.check,if_neg made] at run
    cases run
    exact Or.inl rfl

theorem pollInput {socket : RepSocket} {poll : Poll} {request : Bytes}
    (polled : socket.poll poll = .input request) : poll = .input request := by
  unfold RepSocket.poll at polled
  split at polled
  · split at polled
    · cases polled
    · exact polled
  · exact polled

theorem handleRuns (request : Bytes) : Server.handle handler request s =
    (.done (handler.handleMessage s.handler request).1,
      ⟨s.socket,(handler.handleMessage s.handler request).2⟩) := rfl

theorem receivedSilent (request : Bytes) : Received handler s request
    ⟨s.socket.receive request,(handler.handleMessage s.handler request).2⟩ :=
  ⟨rfl,[],rfl,fun _ member => absurd member List.not_mem_nil⟩

theorem receivedAnswered {request resp : Bytes}
    (answer : (handler.handleMessage s.handler request).1 = some resp) : Received handler s request
      ⟨(s.socket.receive request).send resp,(handler.handleMessage s.handler request).2⟩ := by
  refine ⟨rfl,[resp],rfl,fun reply member => ?_⟩
  rw [answer,List.mem_singleton.mp member]

theorem bodyMoves {o : Outcome Empty Unit} (run : Server.body handler round s = (o,t)) :
    t = s ∨ ∃ request, round.poll = .input request ∧ Received handler s request t := by
  unfold Server.body at run
  rw [Exec.bindOfDone Exec.readApply] at run
  cases polled : s.socket.poll round.poll with
  | error =>
    simp only [polled] at run
    cases run
    exact Or.inl rfl
  | idle =>
    simp only [polled] at run
    cases run
    exact Or.inl rfl
  | input request =>
    simp only [polled] at run
    rcases first : Server.receive round request s with ⟨req | _ | e,u⟩
    · obtain ⟨_,no⟩ | ⟨rfl,same⟩ := receiveMoves first
      · cases no
      · cases same
        rw [Exec.bindOfDone first] at run
        refine Or.inr ⟨request,pollInput polled,?_⟩
        rw [Exec.bindOfDone (handleRuns request)] at run
        dsimp only at run
        cases answer : (handler.handleMessage s.handler request).1 with
        | none =>
          simp only [answer] at run
          cases run
          exact receivedSilent request
        | some resp =>
          simp only [answer] at run
          obtain rfl | rfl := replyMoves run
          · exact receivedSilent request
          · exact receivedAnswered answer
    · obtain ⟨rfl,_⟩ | ⟨_,no⟩ := receiveMoves first
      · rw [Exec.bindOfAbsent first] at run
        cases run
        exact Or.inl rfl
      · cases no
    · exact e.elim

end Round

structure Fits (handler : IHandler σ) (h : σ) (net : State σ) (k : Nat) (session : Session) : Prop where
  began : ∀ place, net.order[place]? = some k → session.began ≤ place
  past : session.began ≤ net.order.length
  replied : ∀ reply, session.reply = some reply → ∃ place, net.order[place]? = some k ∧
    answerAt handler h net.requests place = some reply
  answered : ∀ reply time, session.result = some (some reply,time) → ∃ place,
    net.order[place]? = some k ∧ place < time ∧ answerAt handler h net.requests place = some reply

structure Orderly (handler : IHandler σ) (h : σ) (net : State σ) : Prop where
  once : net.order.Nodup
  requests : net.order.map net.requestOf = net.requests.map some
  state : net.server.handler = handledAll handler h net.requests
  taken : ∀ k ∈ net.order, ∃ session, net.session k = some session ∧ session.queued = false
  fits : ∀ k session, net.session k = some session → Fits handler h net k session

section Steps
variable {handler : IHandler σ} {h : σ} {net : State σ} {k : Nat} {session session' : Session}

theorem openedOrderly (handler : IHandler σ) (h : σ) : Orderly handler h (opened h) where
  once := List.nodup_nil
  requests := rfl
  state := rfl
  taken _ member := absurd member List.not_mem_nil
  fits _ _ here := by cases here

theorem Orderly.linearized (orderly : Orderly handler h net) : Linearized handler h net where
  once := orderly.once
  requests := orderly.requests
  state := orderly.state
  began place k session at_ here := (orderly.fits k session here).began place at_
  answered k session reply time here := (orderly.fits k session here).answered reply time

theorem Orderly.length (orderly : Orderly handler h net) : net.order.length = net.requests.length := by
  have same := congrArg List.length orderly.requests
  rwa [List.length_map,List.length_map] at same

theorem placeBelow {place : Nat} (at_ : net.order[place]? = some k) : place < net.order.length :=
  (List.getElem?_eq_some_iff.mp at_).1

theorem updateSame (here : net.session k = some session) :
    (net.update k session').session k = some session' :=
  List.getElem?_set_self (List.getElem?_eq_some_iff.mp here).1

theorem updateOther {j : Nat} (other : k ≠ j) : (net.update k session').session j = net.session j :=
  List.getElem?_set_ne other

theorem updateRequestOf (here : net.session k = some session)
    (same : session'.request = session.request) : (net.update k session').requestOf = net.requestOf := by
  funext j
  by_cases own : k = j
  · subst own
    rw [State.requestOf,updateSame here,State.requestOf,here,Option.map_some,Option.map_some,same]
  · rw [State.requestOf,updateOther own,State.requestOf]

theorem Orderly.retouch (orderly : Orderly handler h net) (here : net.session k = some session)
    (request : session'.request = session.request) (queued : session.queued = false → session'.queued = false)
    (fits : Fits handler h net k session') : Orderly handler h (net.update k session') where
  once := orderly.once
  requests := by
    rw [updateRequestOf here request]
    exact orderly.requests
  state := orderly.state
  taken j member := by
    obtain ⟨found,there,idle⟩ := orderly.taken j member
    by_cases own : k = j
    · subst own
      cases here.symm.trans there
      exact ⟨session',updateSame here,queued idle⟩
    · exact ⟨found,(updateOther own).trans there,idle⟩
  fits j found there := by
    by_cases own : k = j
    · subst own
      cases (updateSame here).symm.trans there
      exact ⟨fits.began,fits.past,fits.replied,fits.answered⟩
    · rw [updateOther own] at there
      have kept := orderly.fits j found there
      exact ⟨kept.began,kept.past,kept.replied,kept.answered⟩

theorem Orderly.idle (orderly : Orderly handler h net) (running : Bool) :
    Orderly handler h {net with running := running} :=
  ⟨orderly.once,orderly.requests,orderly.state,orderly.taken,fun j found there =>
    have kept := orderly.fits j found there
    ⟨kept.began,kept.past,kept.replied,kept.answered⟩⟩

theorem Orderly.send (orderly : Orderly handler h net) (began : session.began = net.order.length)
    (reply : session.reply = none) (result : session.result = none) :
    Orderly handler h {net with sessions := net.sessions ++ [session]} := by
  have known : ∀ {j found}, net.session j = some found →
      (net.sessions ++ [session])[j]? = some found := by
    intro j found there
    rw [List.getElem?_append_left (List.getElem?_eq_some_iff.mp there).1]
    exact there
  refine ⟨orderly.once,?_,orderly.state,fun j member => ?_,fun j found there => ?_⟩
  · refine (List.map_congr_left fun j member => ?_).trans orderly.requests
    obtain ⟨found,there,_⟩ := orderly.taken j member
    rw [State.requestOf,State.requestOf,there]
    exact congrArg (Option.map Session.request) (known there)
  · obtain ⟨found,there,idle⟩ := orderly.taken j member
    exact ⟨found,known there,idle⟩
  · cases old : net.session j with
    | some other =>
      cases (known old).symm.trans there
      have kept := orderly.fits j _ old
      exact ⟨kept.began,kept.past,kept.replied,kept.answered⟩
    | none =>
      have unknown : ∀ place : Nat, net.order[place]? ≠ some j := by
        intro place at_
        obtain ⟨other,there,_⟩ := orderly.taken j (List.mem_of_getElem? at_)
        cases old.symm.trans there
      have last : found = session := by
        have beyond := List.getElem?_eq_none_iff.mp old
        have at_ : (net.sessions ++ [session])[j]? = some found := there
        rw [List.getElem?_append_right beyond] at at_
        exact List.mem_singleton.mp (List.mem_of_getElem? at_)
      subst last
      refine ⟨fun place at_ => absurd at_ (unknown place),Nat.le_of_eq began,fun value given => ?_,
        fun value time given => ?_⟩
      · cases reply.symm.trans given
      · cases result.symm.trans given

theorem sentReply {request reply : Bytes} {t : Server.State σ}
    (received : Received handler net.server request t) (given : lastReply t.socket = some reply) :
    (handler.handleMessage net.server.handler request).1 = some reply := by
  obtain ⟨replies,logged,sent⟩ := received.logged
  refine sent reply ?_
  rw [lastReply,logged] at given
  exact List.mem_of_mem_head? given

theorem placeKept {place j : Nat} (at_ : net.order[place]? = some j) :
    (net.order ++ [k])[place]? = some j := by
  rw [List.getElem?_append_left (placeBelow at_)]
  exact at_

theorem placeSnoc {place j : Nat} (at_ : (net.order ++ [k])[place]? = some j) :
    net.order[place]? = some j ∨ place = net.order.length ∧ j = k := by
  rcases Nat.lt_trichotomy place net.order.length with below | last | beyond
  · rw [List.getElem?_append_left below] at at_
    exact Or.inl at_
  · subst last
    rw [List.getElem?_concat_length] at at_
    exact Or.inr ⟨rfl,(Option.some.inj at_).symm⟩
  · have short : (net.order ++ [k]).length ≤ place := by
      rw [List.length_append,List.length_singleton]
      omega
    cases (List.getElem?_eq_none short).symm.trans at_

structure Grown (handler : IHandler σ) (net : State σ) (k : Nat) (session : Session) (reply : Option Bytes)
    (next : State σ) : Prop where
  order : next.order = net.order ++ [k]
  requests : next.requests = net.requests ++ [session.request]
  state : next.server.handler = (handler.handleMessage net.server.handler session.request).2
  own : next.session k = some {session with queued := false,reply := reply}
  others : ∀ j, k ≠ j → next.session j = net.session j
  answer : ∀ value, reply = some value →
    (handler.handleMessage net.server.handler session.request).1 = some value

theorem Orderly.fresh (orderly : Orderly handler h net) (here : net.session k = some session)
    (queued : session.queued = true) : k ∉ net.order := by
  intro member
  obtain ⟨other,there,idle⟩ := orderly.taken k member
  cases here.symm.trans there
  cases queued.symm.trans idle

section Grown
variable {next : State σ} {reply : Option Bytes}

theorem Grown.longer (grown : Grown handler net k session reply next) :
    net.order.length ≤ next.order.length := by
  rw [grown.order,List.length_append]
  exact Nat.le_add_right _ _

theorem Grown.earlier (grown : Grown handler net k session reply next) (orderly : Orderly handler h net)
    {place j : Nat} {value : Bytes} (at_ : net.order[place]? = some j)
    (answer : answerAt handler h net.requests place = some value) :
    next.order[place]? = some j ∧ answerAt handler h next.requests place = some value := by
  rw [grown.order,grown.requests,answerBefore (orderly.length ▸ placeBelow at_)]
  exact ⟨placeKept at_,answer⟩

theorem Grown.requestOf (grown : Grown handler net k session reply next)
    (here : net.session k = some session) : next.requestOf = net.requestOf := by
  funext j
  by_cases mine : k = j
  · subst mine
    simp only [State.requestOf,grown.own,here,Option.map_some]
  · rw [State.requestOf,grown.others j mine,State.requestOf]

theorem Grown.served (grown : Grown handler net k session reply next) (orderly : Orderly handler h net)
    (here : net.session k = some session) (fresh : k ∉ net.order) :
    Fits handler h next k {session with queued := false,reply := reply} := by
  have kept := orderly.fits k session here
  refine ⟨fun place at_ => ?_,Nat.le_trans kept.past grown.longer,fun value given => ?_,
    fun value time given => ?_⟩
  · rw [grown.order] at at_
    obtain old | ⟨rfl,_⟩ := placeSnoc at_
    · exact kept.began place old
    · exact kept.past
  · refine ⟨net.order.length,?_,?_⟩
    · rw [grown.order,List.getElem?_concat_length]
    · rw [grown.requests,orderly.length,answerLast,← orderly.state]
      exact grown.answer value given
  · obtain ⟨place,at_,_⟩ := kept.answered value time given
    exact absurd (List.mem_of_getElem? at_) fresh

theorem Grown.bystander (grown : Grown handler net k session reply next)
    (orderly : Orderly handler h net) {j : Nat} {found : Session} (there : net.session j = some found)
    (other : k ≠ j) : Fits handler h next j found := by
  have kept := orderly.fits j found there
  refine ⟨fun place at_ => ?_,Nat.le_trans kept.past grown.longer,fun value given => ?_,
    fun value time given => ?_⟩
  · rw [grown.order] at at_
    obtain old | ⟨_,rfl⟩ := placeSnoc at_
    · exact kept.began place old
    · exact absurd rfl other
  · obtain ⟨place,at_,right⟩ := kept.replied value given
    exact ⟨place,grown.earlier orderly at_ right⟩
  · obtain ⟨place,at_,before,right⟩ := kept.answered value time given
    obtain ⟨still,same⟩ := grown.earlier orderly at_ right
    exact ⟨place,still,before,same⟩

end Grown

theorem Orderly.grow (orderly : Orderly handler h net) (here : net.session k = some session)
    (queued : session.queued = true) {next : State σ} {reply : Option Bytes}
    (grown : Grown handler net k session reply next) : Orderly handler h next := by
  have fresh := orderly.fresh here queued
  refine ⟨?_,?_,?_,fun j member => ?_,fun j found there => ?_⟩
  · rw [grown.order]
    exact List.nodup_append.mpr ⟨orderly.once,List.nodup_singleton k,fun a member b single => by
      rw [List.mem_singleton.mp single]
      rintro rfl
      exact fresh member⟩
  · rw [grown.order,grown.requests,List.map_append,List.map_append,← orderly.requests,
      grown.requestOf here]
    simp only [List.map_cons,List.map_nil,State.requestOf,here,Option.map_some]
  · rw [grown.requests,handledSnoc,← orderly.state]
    exact grown.state
  · rw [grown.order] at member
    rcases List.mem_append.mp member with old | new
    · obtain ⟨found,there,idle⟩ := orderly.taken j old
      exact ⟨found,(grown.others j fun mine => fresh (mine ▸ old)).trans there,idle⟩
    · rw [List.mem_singleton.mp new]
      exact ⟨_,grown.own,rfl⟩
  · by_cases mine : k = j
    · subst mine
      cases grown.own.symm.trans there
      exact grown.served orderly here fresh
    · exact grown.bystander orderly ((grown.others j mine).symm.trans there) mine

theorem Orderly.serve (orderly : Orderly handler h net) (here : net.session k = some session)
    (queued : session.queued = true) {round : Round} (polled : round.poll = .input session.request) :
    Orderly handler h (serve handler net k session round) := by
  unfold Network.serve
  rcases ran : Server.body handler round net.server with ⟨o,t⟩
  dsimp only
  rcases bodyMoves ran with rfl | ⟨request,found,received⟩
  · rw [if_pos rfl]
    exact orderly.idle _
  · cases polled.symm.trans found
    obtain ⟨replies,logged,_⟩ := received.logged
    have longer : t.socket.exchanges.length ≠ net.server.socket.exchanges.length := by
      rw [logged]
      exact Nat.succ_ne_self _
    rw [if_neg longer]
    refine orderly.grow here queued ⟨rfl,?_,received.handled,updateSame here,fun j => updateOther,
      fun value => sentReply received⟩
    change List.map Exchange.request t.socket.exchanges.reverse = _
    rw [logged,List.reverse_cons,List.map_append]
    rfl

theorem returnedReply {reply : Bytes} (returned : returned session = some reply) :
    session.calls.poll session.client.timeout = .input reply := by
  unfold Network.returned at returned
  rw [Client.sendMessageRuns] at returned
  split at returned
  · unfold Client.received at returned
    split at returned
    · rename_i resp polled
      split at returned
      · cases returned
        exact polled
      · cases returned
    · cases returned
  · cases returned

theorem Orderly.finish (orderly : Orderly handler h net) (here : net.session k = some session)
    (brought : Brought session (session.calls.poll session.client.timeout) = true) :
    Orderly handler h
      (net.update k {session with result := some (returned session,net.order.length)}) := by
  have kept := orderly.fits k session here
  refine orderly.retouch here rfl id ⟨kept.began,kept.past,kept.replied,fun reply time given => ?_⟩
  simp only [Option.some.injEq,Prod.mk.injEq] at given
  obtain ⟨got,rfl⟩ := given
  rw [returnedReply got] at brought
  obtain ⟨place,at_,answer⟩ := kept.replied reply (of_decide_eq_true brought)
  exact ⟨place,at_,placeBelow at_,answer⟩

theorem stepOrderly {net' : State σ} {label : Label} (orderly : Orderly handler h net)
    (moved : step handler net label = some net') : Orderly handler h net' := by
  cases label with
  | send client calls request =>
    simp only [step,Option.ite_none_right_eq_some,Option.some.injEq] at moved
    obtain ⟨_,rfl⟩ := moved
    exact orderly.send rfl rfl rfl
  | lose k =>
    simp only [step,Option.bind_eq_some_iff,Option.ite_none_right_eq_some,Option.some.injEq] at moved
    obtain ⟨session,here,_,rfl⟩ := moved
    have kept := orderly.fits k session here
    exact orderly.retouch here rfl (fun _ => rfl) ⟨kept.began,kept.past,kept.replied,kept.answered⟩
  | serve k round =>
    simp only [step,Option.bind_eq_some_iff,Option.ite_none_right_eq_some,Option.some.injEq] at moved
    obtain ⟨session,here,⟨_,queued,polled⟩,rfl⟩ := moved
    exact orderly.serve here queued polled
  | rest round =>
    simp only [step,Option.ite_none_right_eq_some,Option.some.injEq] at moved
    obtain ⟨⟨_,quiet⟩,rfl⟩ := moved
    rcases ran : Server.body handler round net.server with ⟨o,t⟩
    rcases bodyMoves ran with rfl | ⟨request,found,_⟩
    · exact orderly.idle _
    · rw [found] at quiet
      rcases quiet with no | no <;> cases no
  | finish k =>
    simp only [step,Option.bind_eq_some_iff,Option.ite_none_right_eq_some,Option.some.injEq] at moved
    obtain ⟨session,here,⟨_,brought⟩,rfl⟩ := moved
    exact orderly.finish here brought

end Steps

theorem runOrderly {handler : IHandler σ} {h : σ} {labels : List Label} {net : State σ}
    (ran : run (step handler) (opened h) labels = some net) : Orderly handler h net :=
  @runKeeps _ _ _ _ net (fun _ => Orderly handler h) (openedOrderly handler h)
    (fun _ _ _ _ orderly moved => stepOrderly orderly moved) labels ran

def Returned (net : State σ) : Prop := ∀ k session value time, net.session k = some session →
  session.result = some (value,time) → value = returned session

theorem Returned.update {net : State σ} (kept : Returned net) {k : Nat} {session session' : Session}
    (here : net.session k = some session)
    (own : ∀ value time, session'.result = some (value,time) → value = returned session') :
    Returned (net.update k session') := by
  intro j found value time there result
  by_cases mine : k = j
  · subst mine
    cases (updateSame here).symm.trans there
    exact own value time result
  · exact kept j found value time ((updateOther mine).symm.trans there) result

theorem stepReturned {handler : IHandler σ} {net net' : State σ} {label : Label} (kept : Returned net)
    (moved : step handler net label = some net') : Returned net' := by
  cases label with
  | send client calls request =>
    simp only [step,Option.ite_none_right_eq_some,Option.some.injEq] at moved
    obtain ⟨_,rfl⟩ := moved
    intro j found value time there result
    by_cases old : j < net.sessions.length
    · exact kept j found value time ((List.getElem?_append_left old).symm.trans there) result
    · have at_ := (List.getElem?_append_right (Nat.not_lt.mp old)).symm.trans there
      cases List.mem_singleton.mp (List.mem_of_getElem? at_)
      cases result
  | lose k =>
    simp only [step,Option.bind_eq_some_iff,Option.ite_none_right_eq_some,Option.some.injEq] at moved
    obtain ⟨session,here,_,rfl⟩ := moved
    exact kept.update here fun value time => kept k session value time here
  | serve k round =>
    simp only [step,Option.bind_eq_some_iff,Option.ite_none_right_eq_some,Option.some.injEq] at moved
    obtain ⟨session,here,_,rfl⟩ := moved
    unfold serve
    dsimp only
    split
    · exact kept
    · exact kept.update here fun value time => kept k session value time here
  | rest round =>
    simp only [step,Option.ite_none_right_eq_some,Option.some.injEq] at moved
    obtain ⟨_,rfl⟩ := moved
    exact kept
  | finish k =>
    simp only [step,Option.bind_eq_some_iff,Option.ite_none_right_eq_some,Option.some.injEq] at moved
    obtain ⟨session,here,_,rfl⟩ := moved
    refine kept.update here fun value time result => ?_
    cases result
    rfl

theorem runReturned {handler : IHandler σ} {h : σ} {labels : List Label} {net : State σ}
    (ran : run (step handler) (opened h) labels = some net) : Returned net :=
  @runKeeps _ _ _ _ net (fun _ => Returned) (fun _ _ _ _ here => by cases here)
    (fun _ _ _ _ kept moved => stepReturned kept moved) labels ran

theorem repliesAreLinearized (handler : IHandler σ) (h : σ) (labels : List Label) (net : State σ)
    (ran : run (step handler) (opened h) labels = some net) : Linearized handler h net :=
  (runOrderly ran).linearized

def counting : IHandler Nat := ⟨fun h req => (some (req ++ List.replicate h 33),h + 1)⟩

def patient (reply : Bytes) : Client.Calls :=
  ⟨true,true,fun _ => true,true,true,fun _ => .input reply,true,true⟩

def hasty : Client.Calls := ⟨true,true,fun _ => true,true,true,fun _ => .idle,true,true⟩

def someClient : Client := ⟨ascii "127.0.0.1",8888,1000⟩

def sampleSchedule : List Label := [.send someClient hasty (ascii "a"),
  .send someClient (patient (ascii "b!")) (ascii "b"),.finish 0,
  .serve 0 ⟨.input (ascii "a"),true,true,true,true⟩,.rest ⟨.idle,true,true,true,true⟩,
  .serve 1 ⟨.input (ascii "b"),true,true,true,true⟩,.send someClient hasty (ascii "c"),.finish 1,.lose 2]

theorem sampleScheduleLinearized :
    ∃ net, run (step counting) (opened 0) sampleSchedule = some net ∧
      Linearized counting 0 net ∧ net.order = [0,1] ∧
        (net.session 1).map Session.result = some (some (some (ascii "b!"),2)) :=
  ⟨_,rfl,repliesAreLinearized counting 0 sampleSchedule _ rfl,rfl,rfl⟩

end Network
end ChainDB
