import ChainDB.World

/-! Server.cpp over a ZeroMQ REP socket. The socket alternates between receiving a request and
sending its reply; while a reply is owed it signals no input, and a failed send leaves the
reply owed. -/
namespace ChainDB
open Effects

namespace Zmq

structure Exchange where
  request : Bytes
  replies : List Bytes
  deriving DecidableEq, Repr

/-- `exchanges` is a ghost record, the newest first. -/
structure RepSocket where
  owed : Bool
  exchanges : List Exchange
  deriving DecidableEq, Repr

inductive Poll where
  | error
  | idle
  | input (request : Bytes)
  deriving DecidableEq, Repr

structure Round where
  poll : Poll
  msgInit : Bool
  msgRecv : Bool
  msgInitSize : Bool
  msgSend : Bool
  deriving DecidableEq, Repr

namespace RepSocket

def opened : RepSocket := ⟨false,[]⟩

def poll (socket : RepSocket) : Poll → Poll
  | .input request => if socket.owed then .idle else .input request
  | answer => answer

def receive (request : Bytes) (socket : RepSocket) : RepSocket :=
  ⟨true,⟨request,[]⟩ :: socket.exchanges⟩

def send (message : Bytes) (socket : RepSocket) : RepSocket :=
  match socket.exchanges with
  | [] => socket
  | last :: earlier => ⟨false,⟨last.request,last.replies ++ [message]⟩ :: earlier⟩

structure Ready (socket : RepSocket) : Prop where
  answered : ∀ exchange ∈ socket.exchanges, exchange.replies.length = 1
  free : socket.owed = false

theorem openedReady : opened.Ready := ⟨nofun,rfl⟩

theorem Ready.answer {socket : RepSocket} (ready : socket.Ready) (request message : Bytes) :
    ((socket.receive request).send message).Ready := by
  refine ⟨fun exchange member => ?_,rfl⟩
  rcases List.mem_cons.mp member with rfl | earlier
  · rfl
  · exact ready.answered exchange earlier

end RepSocket
end Zmq

structure IHandler (σ : Type) where
  handleMessage : σ → Bytes → Option Bytes × σ

namespace Server
open Zmq

structure State (σ : Type) where
  socket : RepSocket
  handler : σ

variable {σ : Type}

/- An early return is a `break` out of the loop. -/
abbrev Step (σ α : Type) := Exec (State σ) Empty α

def receive (round : Round) (request : Bytes) : Step σ Bytes := do
  Exec.check (round.msgInit = true)
  Exec.check (round.msgRecv = true)
  Exec.modify fun s => {s with socket := s.socket.receive request}
  pure request

def handle (handler : IHandler σ) (req : Bytes) : Step σ (Option Bytes) := do
  let s ← Exec.read
  Exec.modify fun s => {s with handler := (handler.handleMessage s.handler req).2}
  pure (handler.handleMessage s.handler req).1

/- A failed send is logged and nothing else. -/
def reply (round : Round) (resp : Bytes) : Step σ Unit := do
  Exec.check (round.msgInitSize = true)
  Exec.modify fun s => if round.msgSend then {s with socket := s.socket.send resp} else s

def body (handler : IHandler σ) (round : Round) : Step σ Unit := do
  let s ← Exec.read
  match s.socket.poll round.poll with
  | .error => Exec.absent
  | .idle => pure ()
  | .input request => do
    let req ← receive round request
    match ← handle handler req with
    | none => pure ()
    | some resp => reply round resp

def loop (handler : IHandler σ) : List Round → Step σ Unit
  | [] => pure ()
  | round :: rest => do
    body handler round
    loop handler rest

structure Setup where
  context : Bool
  socket : Bool
  bind : Bool
  deriving DecidableEq, Repr

def process (handler : IHandler σ) (setup : Setup) (rounds : List Round) : Step σ Unit := do
  Exec.check (setup.context = true)
  Exec.check (setup.socket = true)
  Exec.check (setup.bind = true)
  loop handler rounds

section Rounds
variable {handler : IHandler σ} {round : Round} {s t : State σ}

/- How a round comes back to the top of the loop: nothing was received, or a request was
received and handled, and its reply sent or not. -/
inductive Back (handler : IHandler σ) (round : Round) (s : State σ) : State σ → Prop where
  | idle (nothing : s.socket.poll round.poll = .idle) : Back handler round s s
  | mute (request : Bytes) (polled : s.socket.poll round.poll = .input request)
      (null : (handler.handleMessage s.handler request).1 = none) :
      Back handler round s ⟨s.socket.receive request,(handler.handleMessage s.handler request).2⟩
  | unsent (request resp : Bytes) (polled : s.socket.poll round.poll = .input request)
      (handled : (handler.handleMessage s.handler request).1 = some resp)
      (failed : round.msgSend = false) :
      Back handler round s ⟨s.socket.receive request,(handler.handleMessage s.handler request).2⟩
  | sent (request resp : Bytes) (polled : s.socket.poll round.poll = .input request)
      (handled : (handler.handleMessage s.handler request).1 = some resp)
      (sent : round.msgSend = true) :
      Back handler round s
        ⟨(s.socket.receive request).send resp,(handler.handleMessage s.handler request).2⟩

theorem receiveDone {request req : Bytes} (h : receive round request s = (.done req,t)) :
    req = request ∧ t = {s with socket := s.socket.receive request} := by
  simp only [receive,Exec.bindDone,Exec.checkDone,Exec.modifyApply,Exec.pureApply,Prod.mk.injEq,
    Outcome.done.injEq] at h
  obtain ⟨_,_,⟨_,rfl⟩,_,_,⟨_,rfl⟩,_,_,⟨_,rfl⟩,rfl,rfl⟩ := h
  exact ⟨rfl,rfl⟩

theorem replyDone {resp : Bytes} (h : reply round resp s = (.done (),t)) :
    t = if round.msgSend then {s with socket := s.socket.send resp} else s := by
  simp only [reply,Exec.bindDone,Exec.checkDone,Exec.modifyApply,Prod.mk.injEq] at h
  obtain ⟨_,_,⟨_,rfl⟩,_,rfl⟩ := h
  rfl

theorem bodyBack (h : body handler round s = (.done (),t)) : Back handler round s t := by
  change (match s.socket.poll round.poll with
    | .error => Exec.absent
    | .idle => pure ()
    | .input request => _ : Step σ Unit) s = _ at h
  cases polled : s.socket.poll round.poll with
  | error =>
    simp only [polled] at h
    cases h
  | idle =>
    simp only [polled] at h
    cases h
    exact .idle polled
  | input request =>
    simp only [polled] at h
    obtain ⟨req,u,received,rest⟩ := Exec.bindDone.mp h
    obtain ⟨rfl,rfl⟩ := receiveDone received
    obtain ⟨resp,v,handled,last⟩ := Exec.bindDone.mp rest
    cases handled
    cases made : (handler.handleMessage s.handler req).1 with
    | none =>
      simp only [made] at last
      cases last
      exact .mute req polled made
    | some resp =>
      simp only [made] at last
      have after := replyDone last
      split at after
      · rename_i sent
        subst after
        exact .sent req resp polled made sent
      · rename_i failed
        subst after
        exact .unsent req resp polled made (eq_false_of_ne_true failed)

end Rounds

section Runs
variable {handler : IHandler σ}

/- The handler made a message of every request that came in, and every message was sent. -/
def Served (handler : IHandler σ) : σ → List Round → Prop
  | _,[] => True
  | h,round :: rest =>
    match round.poll with
    | .input request => (handler.handleMessage h request).1 ≠ none ∧ round.msgSend = true ∧
        Served handler (handler.handleMessage h request).2 rest
    | _ => Served handler h rest

theorem owedStays {rounds : List Round} {s t : State σ} (owed : s.socket.owed = true)
    (h : loop handler rounds s = (.done (),t)) : t.socket = s.socket := by
  induction rounds generalizing s with
  | nil =>
    cases h
    rfl
  | cons round rest ih =>
    obtain ⟨_,u,first,later⟩ := Exec.bindDone.mp h
    have deaf : ∀ request, s.socket.poll round.poll ≠ .input request := by
      intro request polled
      unfold RepSocket.poll at polled
      split at polled
      · simp [owed] at polled
      · rename_i other
        exact other _ polled
    cases bodyBack first with
    | idle => exact ih owed later
    | mute request polled => exact absurd polled (deaf request)
    | unsent request resp polled => exact absurd polled (deaf request)
    | sent request resp polled => exact absurd polled (deaf request)

theorem unansweredStays {rounds : List Round} {s t : State σ} (owed : s.socket.owed = true)
    (h : loop handler rounds s = (.done (),t)) : ¬ t.socket.Ready := by
  intro ready
  have free := ready.free
  rw [owedStays owed h,owed] at free
  cases free

theorem loopServed {rounds : List Round} {s t : State σ} (ready : s.socket.Ready)
    (h : loop handler rounds s = (.done (),t)) :
    t.socket.Ready ↔ Served handler s.handler rounds := by
  induction rounds generalizing s with
  | nil =>
    cases h
    exact iff_of_true ready trivial
  | cons round rest ih =>
    obtain ⟨_,u,first,later⟩ := Exec.bindDone.mp h
    have open_ : s.socket.poll round.poll = round.poll := by
      unfold RepSocket.poll
      split
      · rename_i polled
        simp [ready.free,polled]
      · rfl
    cases bodyBack first with
    | idle nothing =>
      rw [open_] at nothing
      simp only [Served,nothing]
      exact ih ready later
    | mute request polled null =>
      rw [open_] at polled
      simp only [Served,polled]
      exact iff_of_false (unansweredStays rfl later) fun served => served.1 null
    | unsent request resp polled handled failed =>
      rw [open_] at polled
      simp only [Served,polled]
      exact iff_of_false (unansweredStays rfl later) fun served => by simp [failed] at served
    | sent request resp polled handled sent =>
      rw [open_] at polled
      simp only [Served,polled,handled,sent]
      rw [ih (ready.answer request resp) later]
      simp

end Runs

theorem neverPollsWhileOwing (handler : IHandler σ) (setup : Setup) (rounds : List Round) (h : σ)
    (t : State σ) (top : process handler setup rounds ⟨RepSocket.opened,h⟩ = (.done (),t)) :
    t.socket.Ready ↔ Served handler h rounds := by
  simp only [process,Exec.bindDone,Exec.checkDone] at top
  obtain ⟨_,_,⟨_,rfl⟩,_,_,⟨_,rfl⟩,_,_,⟨_,rfl⟩,run⟩ := top
  exact loopServed RepSocket.openedReady run

def pingOnly : IHandler Unit :=
  ⟨fun h req => (if req = ascii "ping" then some (ascii "pong") else none,h)⟩

def input (request : Bytes) (sent : Bool) : Round := ⟨.input request,true,true,true,sent⟩

theorem deafAfterOneRequest :
    (process pingOnly ⟨true,true,true⟩ [input (ascii "test") true,input (ascii "ping") true]
        ⟨RepSocket.opened,()⟩ = (.done (),⟨⟨true,[⟨ascii "test",[]⟩]⟩,()⟩) ∧
      process pingOnly ⟨true,true,true⟩ [input (ascii "ping") false,input (ascii "ping") true]
        ⟨RepSocket.opened,()⟩ = (.done (),⟨⟨true,[⟨ascii "ping",[]⟩]⟩,()⟩)) ∧
    ¬ (RepSocket.Ready ⟨true,[⟨ascii "test",[]⟩]⟩) ∧ ¬ (RepSocket.Ready ⟨true,[⟨ascii "ping",[]⟩]⟩) := by
  refine ⟨⟨rfl,rfl⟩,?_,?_⟩ <;>
  · intro ready
    cases ready.free

theorem pingsAreServed :
    RepSocket.Ready ⟨false,[⟨ascii "ping",[ascii "pong"]⟩,⟨ascii "ping",[ascii "pong"]⟩]⟩ ↔
      Served pingOnly () [input (ascii "ping") true,input (ascii "ping") true] :=
  neverPollsWhileOwing pingOnly ⟨true,true,true⟩ [input (ascii "ping") true,input (ascii "ping") true] ()
    ⟨⟨false,[⟨ascii "ping",[ascii "pong"]⟩,⟨ascii "ping",[ascii "pong"]⟩]⟩,()⟩ rfl

end Server
end ChainDB
