import ChainDB.Chain
import ChainDB.Server

/-! Client.cpp: one request over a ZeroMQ REQ socket, and the handles that it opens on the way. A null
reply is `absent`. Closing what is not open is undefined behaviour of the library, and destroying a
context waits for its sockets. Apart from that every call is taken to return, also where a message is still
to be delivered. -/
namespace ChainDB
open Effects

structure Client where
  addr : Bytes
  port : UInt64
  timeout : UInt64
  deriving DecidableEq, Repr

namespace Client
open Zmq

inductive Handle where
  | context | socket | message
  deriving DecidableEq, Repr

inductive Misuse where
  | closedTwice
  | waitsForever
  deriving DecidableEq, Repr

/-- The handles of one call, and a ghost record of what went out. -/
structure Library where
  opened : Handle → Nat
  sent : List Bytes

abbrev Talk (α : Type) := Exec Library Misuse α

structure Calls where
  ctxNew : Bool
  socket : Bool
  connect : Bytes → Bool
  msgInitSize : Bool
  msgSend : Bool
  poll : UInt64 → Poll
  msgInit : Bool
  msgRecv : Bool

def Library.holding (handle : Handle) (l : Library) : Library :=
  {l with opened := Function.update l.opened handle (l.opened handle + 1)}

def Library.sending (msg : Bytes) (l : Library) : Library := {l with sent := l.sent ++ [msg]}

def acquire (handle : Handle) : Talk Unit := Exec.modify (Library.holding handle)

def close (handle : Handle) : Talk Unit := do
  let l ← Exec.read
  if l.opened handle = 0 then Exec.halt .closedTwice
  else if handle = .context ∧ l.opened .socket ≠ 0 then Exec.halt .waitsForever
  else Exec.modify fun l => {l with opened := Function.update l.opened handle (l.opened handle - 1)}

def makeEndpointPath (client : Client) : Bytes :=
  ascii "tcp://" ++ client.addr ++ ascii ":" ++ decimal client.port

def transmit (calls : Calls) (client : Client) (msg : Bytes) : Talk Unit := do
  Exec.check (calls.connect client.makeEndpointPath = true)
  Exec.check (calls.msgInitSize = true)
  acquire .message
  if calls.msgSend then do
    Exec.modify (Library.sending msg)
    close .message
  else do
    close .message
    Exec.absent

def await (calls : Calls) (client : Client) : Talk Bytes :=
  match calls.poll client.timeout with
  | .error => Exec.absent
  | .idle => Exec.absent
  | .input resp => do
    Exec.check (calls.msgInit = true)
    acquire .message
    if calls.msgRecv then do
      close .message
      Exec.check (resp ≠ [])
      pure resp
    else do
      close .message
      Exec.absent

def exchange (calls : Calls) (client : Client) (msg : Bytes) : Talk Bytes := do
  transmit calls client msg
  await calls client

def sendMessage (calls : Calls) (client : Client) (msg : Bytes) : Talk Bytes := do
  Exec.check (calls.ctxNew = true)
  acquire .context
  if calls.socket then do
    acquire .socket
    let resp ← Exec.attempt (exchange calls client msg)
    close .socket
    close .context
    Exec.ofOption resp
  else do
    close .context
    Exec.absent

def Transmits (calls : Calls) (client : Client) : Prop :=
  calls.connect client.makeEndpointPath = true ∧ calls.msgInitSize = true ∧ calls.msgSend = true

instance (calls : Calls) (client : Client) : Decidable (Transmits calls client) :=
  inferInstanceAs (Decidable (_ ∧ _))

abbrev Reaches (calls : Calls) (client : Client) : Prop :=
  calls.ctxNew = true ∧ calls.socket = true ∧ Transmits calls client

def received (calls : Calls) (client : Client) : Option Bytes :=
  match calls.poll client.timeout with
  | .input resp => if calls.msgInit = true ∧ calls.msgRecv = true ∧ resp ≠ [] then some resp else none
  | _ => none

def outcome : Option Bytes → Outcome Misuse Bytes
  | some reply => .done reply
  | none => .absent

section Ways
variable {calls : Calls} {client : Client} {l : Library}

theorem closeAcquired {handle : Handle} (alone : handle = .context → l.opened .socket = 0) :
    close handle (l.holding handle) = (.done (),l) := by
  have one : (l.holding handle).opened handle ≠ 0 := by simp [Library.holding]
  have free : ¬ (handle = .context ∧ (l.holding handle).opened .socket ≠ 0) := by
    rintro ⟨rfl,busy⟩
    have apart : Handle.socket ≠ .context := by decide
    simp only [Library.holding,Function.update_of_ne apart,alone rfl,ne_eq,not_true_eq_false] at busy
  unfold close
  rw [Exec.bindOfDone Exec.readApply,if_neg one,if_neg free]
  simp [Library.holding]

theorem closeOther {handle : Handle} (other : handle ≠ .context) :
    close handle (l.holding handle) = (.done (),l) := closeAcquired fun same => absurd same other

theorem checkHolds {p : Prop} [Decidable p] (h : p) : (Exec.check p : Talk Unit) l = (.done (),l) :=
  Exec.checkDone.mpr ⟨h,rfl⟩

theorem checkFails {p : Prop} [Decidable p] (h : ¬ p) : (Exec.check p : Talk Unit) l = (.absent,l) :=
  Exec.checkAbsent.mpr ⟨h,rfl⟩

theorem transmitRuns (msg : Bytes) : transmit calls client msg l =
    if Transmits calls client then (.done (),l.sending msg) else (.absent,l) := by
  unfold transmit
  by_cases connected : calls.connect client.makeEndpointPath = true
  · rw [Exec.bindOfDone (checkHolds connected)]
    by_cases made : calls.msgInitSize = true
    · rw [Exec.bindOfDone (checkHolds made),acquire,Exec.bindOfDone Exec.modifyApply]
      cases sent : calls.msgSend with
      | true =>
        have closed := @closeOther (l.sending msg) .message (by decide)
        rw [if_pos rfl,Exec.bindOfDone Exec.modifyApply,if_pos ⟨connected,made,sent⟩]
        exact closed
      | false =>
        rw [if_neg Bool.false_ne_true,Exec.bindOfDone (closeOther (by decide)),
          if_neg fun all => Bool.false_ne_true (sent.symm.trans all.2.2)]
        rfl
    · rw [Exec.bindOfAbsent (checkFails made),if_neg fun all => made all.2.1]
  · rw [Exec.bindOfAbsent (checkFails connected),if_neg fun all => connected all.1]

theorem awaitRuns : await calls client l = (outcome (received calls client),l) := by
  unfold await received
  cases calls.poll client.timeout with
  | error => rfl
  | idle => rfl
  | input resp =>
    dsimp only
    by_cases made : calls.msgInit = true
    · rw [Exec.bindOfDone (checkHolds made),acquire,Exec.bindOfDone Exec.modifyApply]
      cases got : calls.msgRecv with
      | true =>
        rw [if_pos rfl,Exec.bindOfDone (closeOther (by decide))]
        by_cases filled : resp ≠ []
        · rw [Exec.bindOfDone (checkHolds filled),if_pos ⟨made,rfl,filled⟩]
          rfl
        · rw [Exec.bindOfAbsent (checkFails filled),if_neg fun all => filled all.2.2]
          rfl
      | false =>
        rw [if_neg Bool.false_ne_true,Exec.bindOfDone (closeOther (by decide)),
          if_neg fun all => Bool.false_ne_true all.2.1]
        rfl
    · rw [Exec.bindOfAbsent (checkFails made),if_neg fun all => made all.1]
      rfl

theorem exchangeRuns (msg : Bytes) : Exec.attempt (exchange calls client msg) l =
    if Transmits calls client then (.done (received calls client),l.sending msg) else (.done none,l) := by
  unfold exchange
  by_cases transmits : Transmits calls client
  · have first := @transmitRuns calls client l msg
    rw [if_pos transmits] at first ⊢
    unfold Exec.attempt
    rw [Exec.bindOfDone first,awaitRuns]
    cases received calls client <;> rfl
  · have first := @transmitRuns calls client l msg
    rw [if_neg transmits] at first ⊢
    unfold Exec.attempt
    rw [Exec.bindOfAbsent first]

end Ways

theorem sendMessageRuns (calls : Calls) (client : Client) (msg : Bytes) (sent : List Bytes) :
    sendMessage calls client msg ⟨fun _ => 0,sent⟩ =
      if Reaches calls client then (outcome (received calls client),⟨fun _ => 0,sent ++ [msg]⟩)
      else (.absent,⟨fun _ => 0,sent⟩) := by
  have ends : ∀ (reply : Option Bytes) (l : Library), l.opened .socket = 0 →
      (do close .socket; close .context; Exec.ofOption reply : Talk Bytes)
        ((l.holding .context).holding .socket) = (outcome reply,l) := by
    intro reply l alone
    rw [Exec.bindOfDone (closeOther (by decide)),Exec.bindOfDone (closeAcquired fun _ => alone)]
    cases reply <;> rfl
  unfold sendMessage
  by_cases made : calls.ctxNew = true
  · rw [Exec.bindOfDone (checkHolds made),acquire,Exec.bindOfDone Exec.modifyApply]
    by_cases opened : calls.socket = true
    · rw [if_pos opened,acquire,Exec.bindOfDone Exec.modifyApply]
      have middle := @exchangeRuns calls client
        (Library.holding .socket (Library.holding .context ⟨fun _ => 0,sent⟩)) msg
      by_cases transmits : Transmits calls client
      · rw [if_pos transmits] at middle
        rw [Exec.bindOfDone middle,if_pos ⟨made,opened,transmits⟩]
        exact ends (received calls client) ⟨fun _ => 0,sent ++ [msg]⟩ rfl
      · rw [if_neg transmits] at middle
        rw [Exec.bindOfDone middle,if_neg fun all => transmits all.2.2]
        exact ends none ⟨fun _ => 0,sent⟩ rfl
    · rw [if_neg opened,Exec.bindOfDone (closeAcquired fun _ => rfl),if_neg fun all => opened all.2.1]
      rfl
  · rw [Exec.bindOfAbsent (checkFails made),if_neg fun all => made all.1]

structure Attempt where
  calls : Calls
  msg : Bytes

def sendMessages (client : Client) : List Attempt → Talk (List (Option Bytes))
  | [] => pure []
  | attempt :: rest => do
    let resp ← Exec.attempt (sendMessage attempt.calls client attempt.msg)
    let resps ← sendMessages client rest
    pure (resp :: resps)

/- No call failed, and what came in time has bytes. -/
structure Replied (client : Client) (attempt : Attempt) (reply : Bytes) : Prop where
  reaches : Reaches attempt.calls client
  readable : attempt.calls.poll client.timeout = .input reply
  msgInit : attempt.calls.msgInit = true
  msgRecv : attempt.calls.msgRecv = true
  filled : reply ≠ []

def Result (client : Client) (attempt : Attempt) (resp : Option Bytes) : Prop :=
  ∀ reply, resp = some reply ↔ Replied client attempt reply

theorem receivedIff {calls : Calls} {client : Client} {reply : Bytes} :
    received calls client = some reply ↔ calls.poll client.timeout = .input reply ∧
      calls.msgInit = true ∧ calls.msgRecv = true ∧ reply ≠ [] := by
  unfold received
  cases arrived : calls.poll client.timeout with
  | error => simp
  | idle => simp
  | input resp =>
    simp only [Option.ite_none_right_eq_some,Option.some.injEq,Poll.input.injEq]
    constructor
    · rintro ⟨well,rfl⟩
      exact ⟨rfl,well⟩
    · rintro ⟨rfl,well⟩
      exact ⟨well,rfl⟩

theorem attemptRuns (client : Client) (attempt : Attempt) (sent : List Bytes) : ∃ resp,
    Exec.attempt (sendMessage attempt.calls client attempt.msg) ⟨fun _ => 0,sent⟩ =
      (.done resp,⟨fun _ => 0,sent ++ if Reaches attempt.calls client then [attempt.msg] else []⟩) ∧
      Result client attempt resp := by
  have one := sendMessageRuns attempt.calls client attempt.msg sent
  by_cases reaches : Reaches attempt.calls client
  · rw [if_pos reaches] at one ⊢
    refine ⟨received attempt.calls client,?_,fun reply => ?_⟩
    · unfold Exec.attempt
      rw [one]
      cases received attempt.calls client <;> rfl
    · rw [receivedIff]
      constructor
      · rintro ⟨readable,msgInit,msgRecv,filled⟩
        exact ⟨reaches,readable,msgInit,msgRecv,filled⟩
      · intro replied
        exact ⟨replied.readable,replied.msgInit,replied.msgRecv,replied.filled⟩
  · rw [if_neg reaches] at one ⊢
    refine ⟨none,?_,fun reply => iff_of_false nofun fun replied => reaches replied.reaches⟩
    rw [Exec.attemptNone,one,List.append_nil]

/- Whatever fails, and however often: nothing is closed twice or left open, no request goes out twice, and
a call returns a reply exactly when one came and no library call failed. -/
theorem messagesAreReleased (client : Client) (attempts : List Attempt) (sent : List Bytes) : ∃ resps,
    sendMessages client attempts ⟨fun _ => 0,sent⟩ =
      (.done resps,⟨fun _ => 0,sent ++
        (attempts.filter fun attempt => Reaches attempt.calls client).map Attempt.msg⟩) ∧
      List.Forall₂ (Result client) attempts resps := by
  induction attempts generalizing sent with
  | nil => exact ⟨[],by simp [sendMessages],.nil⟩
  | cons attempt rest ih =>
    obtain ⟨resp,first,own⟩ := attemptRuns client attempt sent
    obtain ⟨resps,later,others⟩ :=
      ih (sent ++ if Reaches attempt.calls client then [attempt.msg] else [])
    refine ⟨resp :: resps,?_,.cons own others⟩
    rw [sendMessages,Exec.bindOfDone first,Exec.bindOfDone later,Exec.pureApply,List.filter_cons]
    by_cases reaches : Reaches attempt.calls client
    · rw [if_pos reaches,if_pos (decide_eq_true reaches),List.append_assoc]
      rfl
    · rw [if_neg reaches,if_neg fun both => reaches (of_decide_eq_true both),List.append_nil]

end Client
end ChainDB
