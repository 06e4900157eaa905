import ChainDB.Library.Transition
import ChainDB.Network

/-! ChainDB.cpp: the main thread of the service, the server's thread and the signals that may come at any
moment, with the flag `_isStopped` between them. `main` has been through `initialize`, so the signal
handler is installed. -/
namespace ChainDB
open Effects Transition

namespace Lifecycle
open Zmq

/-- How far `ChainDB::run` has come. `_server` is set from `assigned` on. -/
inductive Main where
  | initialized | constructed | assigned | started
  | returned (result : Bool)
  deriving DecidableEq, Repr

/-- Where the server's thread is: `top` is before the test of the loop, `round` behind it. -/
inductive Thread where
  | absent | setup | top | round | ended
  deriving DecidableEq, Repr

structure Process (σ : Type) where
  main : Main
  isStopped : Bool
  thread : Thread
  state : Server.State σ

inductive Label where
  | construct
  | assign
  | start
  | signal
  | setUp (setup : Server.Setup)
  | test
  | round (round : Round)
  | join
  deriving DecidableEq, Repr

variable {σ : Type}

def begun (h : σ) : Process σ := ⟨.initialized,false,.absent,⟨RepSocket.opened,h⟩⟩

def Process.hasServer (p : Process σ) : Bool :=
  decide (p.main ≠ .initialized ∧ p.main ≠ .constructed)

def stop (p : Process σ) : Process σ := if p.hasServer then {p with isStopped := false} else p

/- `test_and_set`: the flag is set whatever it was, and a cleared one ends the loop. -/
def testAndSet (p : Process σ) : Process σ :=
  {p with isStopped := true,thread := if p.isStopped then .round else .ended}

def step (handler : IHandler σ) : Step (Process σ) Label
  | p,.construct =>
    if p.main = .initialized then some {p with main := .constructed,isStopped := true} else none
  | p,.assign => if p.main = .constructed then some {p with main := .assigned} else none
  | p,.start =>
    if p.main = .assigned then some {p with main := .started,thread := .setup} else none
  | p,.signal => some (stop p)
  | p,.setUp setup =>
    if p.thread = .setup then
      some {p with
        thread := if setup.context ∧ setup.socket ∧ setup.bind then .top else .ended}
    else none
  | p,.test => if p.thread = .top then some (testAndSet p) else none
  | p,.round round =>
    if p.thread = .round then
      let ran := Server.body handler round p.state
      some {p with state := ran.2,thread := if ran.1 = .done () then .top else .ended}
    else none
  | p,.join =>
    if p.main = .started ∧ p.thread = .ended then some {p with main := .returned true} else none

def Label.ofThread : Label → Bool
  | .setUp _ | .test | .round _ => true
  | _ => false

def Process.received (p : Process σ) : Nat := p.state.socket.exchanges.length

/- The steps that the thread may still take once its flag is cleared. -/
def stepsLeft : Thread → Nat
  | .absent => 2
  | .setup => 2
  | .top => 1
  | .round => 2
  | .ended => 0

def requestsLeft : Thread → Nat
  | .round => 1
  | _ => 0

structure Coherent (p : Process σ) : Prop where
  before : p.main = .initialized ∨ p.main = .constructed ∨ p.main = .assigned → p.thread = .absent
  after : ∀ result, p.main = .returned result → result = true ∧ p.thread = .ended

section Steps
variable {handler : IHandler σ} {h : σ} {p q : Process σ} {label : Label}

theorem bodyReceives {round : Round} {s t : Server.State σ} {o : Outcome Empty Unit}
    (ran : Server.body handler round s = (o,t)) :
    t.socket.exchanges.length ≤ s.socket.exchanges.length + 1 := by
  rcases Network.bodyMoves ran with rfl | ⟨request,_,received⟩
  · exact Nat.le_succ _
  · obtain ⟨replies,logged,_⟩ := received.logged
    rw [logged]
    exact Nat.le_refl _

theorem begunCoherent (h : σ) : Coherent (begun h) := ⟨fun _ => rfl,fun _ same => by cases same⟩

/-- What a step can do, with what has to hold before it. -/
inductive Moves (handler : IHandler σ) (p : Process σ) : Label → Process σ → Prop where
  | construct (first : p.main = .initialized) :
      Moves handler p .construct {p with main := .constructed,isStopped := true}
  | assign (built : p.main = .constructed) : Moves handler p .assign {p with main := .assigned}
  | start (known : p.main = .assigned) :
      Moves handler p .start {p with main := .started,thread := .setup}
  | signal : Moves handler p .signal (stop p)
  | setUp (setup : Server.Setup) (here : p.thread = .setup) : Moves handler p (.setUp setup)
      {p with thread := if setup.context ∧ setup.socket ∧ setup.bind then .top else .ended}
  | test (here : p.thread = .top) : Moves handler p .test (testAndSet p)
  | round (round : Round) (here : p.thread = .round) (o : Outcome Empty Unit) (t : Server.State σ)
      (ran : Server.body handler round p.state = (o,t)) : Moves handler p (.round round)
        {p with state := t,thread := if o = .done () then .top else .ended}
  | join (running : p.main = .started) (ended : p.thread = .ended) :
      Moves handler p .join {p with main := .returned true}

theorem stepMoves (moved : step handler p label = some q) : Moves handler p label q := by
  cases label with
  | signal =>
    cases moved
    exact .signal
  | construct =>
    obtain ⟨first,same⟩ := Option.ite_none_right_eq_some.mp moved
    cases same
    exact .construct first
  | assign =>
    obtain ⟨built,same⟩ := Option.ite_none_right_eq_some.mp moved
    cases same
    exact .assign built
  | start =>
    obtain ⟨known,same⟩ := Option.ite_none_right_eq_some.mp moved
    cases same
    exact .start known
  | setUp setup =>
    obtain ⟨here,same⟩ := Option.ite_none_right_eq_some.mp moved
    cases same
    exact .setUp setup here
  | test =>
    obtain ⟨here,same⟩ := Option.ite_none_right_eq_some.mp moved
    cases same
    exact .test here
  | round round =>
    obtain ⟨here,same⟩ := Option.ite_none_right_eq_some.mp moved
    cases same
    exact .round round here _ _ rfl
  | join =>
    obtain ⟨⟨running,ended⟩,same⟩ := Option.ite_none_right_eq_some.mp moved
    cases same
    exact .join running ended

theorem stepCoherent (coherent : Coherent p) (moves : Moves handler p label q) : Coherent q := by
  have running : ∀ {thread : Thread}, p.thread = thread → thread ≠ .absent → thread ≠ .ended →
      ∀ isStopped next state, Coherent (⟨p.main,isStopped,next,state⟩ : Process σ) := by
    intro thread here some_ open_ isStopped next state
    refine ⟨fun early => ?_,fun result late => ?_⟩
    · exact absurd (here.symm.trans (coherent.before early)) some_
    · exact absurd (here.symm.trans (coherent.after result late).2) open_
  cases moves with
  | construct first =>
    exact ⟨fun _ => coherent.before (Or.inl first),fun _ same => by cases same⟩
  | assign built =>
    exact ⟨fun _ => coherent.before (Or.inr (Or.inl built)),fun _ same => by cases same⟩
  | start known =>
    refine ⟨fun early => ?_,fun _ same => by cases same⟩
    rcases early with no | no | no <;> cases no
  | signal =>
    unfold stop
    split
    · exact ⟨coherent.before,coherent.after⟩
    · exact coherent
  | setUp setup here => exact running here nofun nofun _ _ _
  | test here => exact running here nofun nofun _ _ _
  | round round here o t ran => exact running here nofun nofun _ _ _
  | join running ended =>
    refine ⟨fun early => ?_,fun _ same => ?_⟩
    · rcases early with no | no | no <;> cases no
    · cases same
      exact ⟨rfl,ended⟩

theorem runCoherent {labels : List Label} (ran : run (step handler) (begun h) labels = some p) :
    Coherent p :=
  @runKeeps _ _ _ _ p (fun _ => Coherent) (begunCoherent h)
    (fun _ _ _ _ coherent moved => stepCoherent coherent (stepMoves moved)) labels ran

end Steps

/-! A cleared flag stays cleared until the test that ends the loop. -/

structure Stopping (p : Process σ) : Prop extends Coherent p where
  server : p.hasServer = true
  cleared : p.thread = .ended ∨ p.isStopped = false

structure Bounded (p q : Process σ) (threadSteps : Nat) : Prop where
  steps : threadSteps + stepsLeft q.thread ≤ stepsLeft p.thread
  requests : q.received + requestsLeft q.thread ≤ p.received + requestsLeft p.thread

section Stopping
variable {handler : IHandler σ} {p q : Process σ} {label : Label}

theorem topOrEnded (c : Prop) [Decidable c] :
    stepsLeft (if c then .top else .ended) ≤ 1 ∧ requestsLeft (if c then .top else .ended) = 0 := by
  by_cases holds : c
  · rw [if_pos holds]
    exact ⟨Nat.le_refl _,rfl⟩
  · rw [if_neg holds]
    exact ⟨Nat.zero_le _,rfl⟩

theorem stopStops (coherent : Coherent p) (server : p.hasServer = true) : Stopping (stop p) := by
  unfold stop
  rw [if_pos server]
  exact ⟨⟨coherent.before,coherent.after⟩,server,Or.inr rfl⟩

theorem stoppingStep (stopping : Stopping p) (moves : Moves handler p label q) :
    Stopping q ∧ Bounded p q (if label.ofThread then 1 else 0) := by
  have coherent := stepCoherent stopping.toCoherent moves
  have still : Bounded p p 0 := ⟨by omega,Nat.le_refl _⟩
  have flag : ∀ {thread : Thread}, p.thread = thread → thread ≠ .ended → p.isStopped = false :=
    fun here open_ => stopping.cleared.resolve_left fun ended => open_ (here.symm.trans ended)
  cases moves with
  | construct first =>
    have server := stopping.server
    simp [Process.hasServer,first] at server
  | assign built =>
    have server := stopping.server
    simp [Process.hasServer,built] at server
  | start known =>
    have quiet := stopping.before (Or.inr (Or.inr known))
    refine ⟨⟨coherent,rfl,Or.inr (flag quiet nofun)⟩,?_,Nat.le_add_right _ _⟩
    rw [quiet]
    exact Nat.le_refl _
  | signal =>
    refine ⟨stopStops stopping.toCoherent stopping.server,?_⟩
    unfold stop
    rw [if_pos stopping.server]
    exact ⟨still.steps,Nat.le_refl _⟩
  | setUp setup here =>
    have left := topOrEnded (setup.context ∧ setup.socket ∧ setup.bind)
    refine ⟨⟨coherent,stopping.server,Or.inr (flag here nofun)⟩,?_,?_⟩
    · rw [here]
      exact Nat.add_le_add_left left.1 1
    · rw [left.2]
      exact Nat.le_add_right _ _
  | test here =>
    have ends : (testAndSet p).thread = .ended := by simp [testAndSet,flag here nofun]
    refine ⟨⟨coherent,stopping.server,Or.inl ends⟩,?_,?_⟩
    · rw [ends,here]
      exact Nat.le_refl _
    · rw [ends,here]
      exact Nat.le_refl _
  | round round here o t ran =>
    have left := topOrEnded (o = .done ())
    refine ⟨⟨coherent,stopping.server,Or.inr (flag here nofun)⟩,?_,?_⟩
    · rw [here]
      exact Nat.add_le_add_left left.1 1
    · rw [left.2,here]
      exact bodyReceives ran
  | join running ended => exact ⟨⟨coherent,rfl,Or.inl ended⟩,still.steps,still.requests⟩

theorem runStopping (stopping : Stopping p) {labels : List Label}
    (ran : run (step handler) p labels = some q) :
    Stopping q ∧ Bounded p q (labels.filter Label.ofThread).length := by
  refine @runKeeps _ _ _ p q (fun labels r => Stopping r ∧ Bounded p r (labels.filter Label.ofThread).length)
    ⟨stopping,by simp,Nat.le_refl _⟩ (fun labels label r r' inv moved => ?_) labels ran
  obtain ⟨now,bounded⟩ := inv
  obtain ⟨next,one⟩ := stoppingStep now (stepMoves moved)
  have count : ((labels ++ [label]).filter Label.ofThread).length =
      (labels.filter Label.ofThread).length + if label.ofThread then 1 else 0 := by
    cases own : label.ofThread <;> simp [own]
  have steps := bounded.steps
  have requests := bounded.requests
  have stepsNow := one.steps
  have requestsNow := one.requests
  rw [count]
  exact ⟨next,by omega,by omega⟩

end Stopping

theorem stopEndsServer (handler : IHandler σ) (h : σ) (before after : List Label) (p q : Process σ)
    (reached : run (step handler) (begun h) before = some p) (server : p.hasServer = true)
    (later : run (step handler) (stop p) after = some q) :
    (after.filter Label.ofThread).length ≤ stepsLeft p.thread ∧
      q.received ≤ p.received + requestsLeft p.thread ∧ (q.thread = .ended ∨ q.isStopped = false) := by
  obtain ⟨stopping,bounded⟩ := runStopping (stopStops (runCoherent reached) server) later
  have same : stop p = {p with isStopped := false} := if_pos server
  have steps := bounded.steps
  have requests := bounded.requests
  rw [same] at steps requests
  exact ⟨Nat.le_trans (Nat.le_add_right _ _) steps,Nat.le_trans (Nat.le_add_right _ _) requests,
    stopping.cleared⟩

def Faulty : Label → Prop
  | .setUp setup => ¬ (setup.context ∧ setup.socket ∧ setup.bind)
  | .round round => round.poll = .error ∨ round.msgInit = false ∨ round.msgRecv = false ∨
      round.msgInitSize = false
  | _ => False

/- A signal that found the server. -/
def Signalled (handler : IHandler σ) (h : σ) (labels : List Label) : Prop :=
  ∃ before after p, labels = before ++ .signal :: after ∧
    run (step handler) (begun h) before = some p ∧ p.hasServer = true

structure Serving (p : Process σ) : Prop extends Coherent p where
  open_ : p.thread ≠ .ended
  set : p.main ≠ .initialized → p.isStopped = true

section Serving
variable {handler : IHandler σ} {h : σ} {p q : Process σ} {labels : List Label} {label : Label}

theorem Signalled.later (signalled : Signalled handler h labels) (label : Label) :
    Signalled handler h (labels ++ [label]) := by
  obtain ⟨before,after,p,rfl,ran,server⟩ := signalled
  exact ⟨before,after ++ [label],p,by simp,ran,server⟩

theorem bodyGoesOn {round : Round} {s : Server.State σ} (sound : ¬ Faulty (.round round)) :
    (Server.body handler round s).1 = .done () := by
  obtain ⟨poll,msgInit,msgRecv,msgInitSize⟩ : round.poll ≠ .error ∧ round.msgInit = true ∧
      round.msgRecv = true ∧ round.msgInitSize = true := by
    simpa only [Faulty,not_or,Bool.not_eq_false] using sound
  unfold Server.body
  rw [Exec.bindOfDone Exec.readApply]
  cases polled : s.socket.poll round.poll with
  | error =>
    unfold RepSocket.poll at polled
    split at polled
    · split at polled <;> cases polled
    · exact absurd polled poll
  | idle => rfl
  | input request =>
    have received : Server.receive round request s =
        (.done request,{s with socket := s.socket.receive request}) := by
      simp only [Server.receive,Exec.check,msgInit,msgRecv,if_true]
      rfl
    dsimp only
    rw [Exec.bindOfDone received,Exec.bindOfDone (Network.handleRuns request)]
    dsimp only
    cases (handler.handleMessage s.handler request).1 with
    | none => rfl
    | some resp =>
      simp only [Server.reply,Exec.check,msgInitSize,if_true]
      rfl

theorem begunServing (h : σ) : Serving (begun h) := ⟨begunCoherent h,nofun,fun no => absurd rfl no⟩

theorem Serving.flag (serving : Serving p) (thread : p.thread ≠ .absent) : p.isStopped = true :=
  serving.set fun main => thread (serving.before (Or.inl main))

theorem servingStep (serving : Serving p) (ran : run (step handler) (begun h) labels = some p)
    (moves : Moves handler p label q) :
    Serving q ∨ Faulty label ∨ Signalled handler h (labels ++ [label]) := by
  have coherent := stepCoherent serving.toCoherent moves
  cases moves with
  | construct first => exact Or.inl ⟨coherent,serving.open_,fun _ => rfl⟩
  | assign built =>
    exact Or.inl ⟨coherent,serving.open_,fun _ => serving.set (by rw [built]; exact nofun)⟩
  | start known => exact Or.inl ⟨coherent,nofun,fun _ => serving.set (by rw [known]; exact nofun)⟩
  | signal =>
    by_cases server : p.hasServer = true
    · exact Or.inr (Or.inr ⟨labels,[],p,rfl,ran,server⟩)
    · have same : stop p = p := if_neg server
      rw [same]
      exact Or.inl serving
  | setUp setup here =>
    by_cases ready : setup.context ∧ setup.socket ∧ setup.bind
    · refine Or.inl ⟨coherent,?_,serving.set⟩
      rw [if_pos ready]
      exact nofun
    · exact Or.inr (Or.inl ready)
  | test here =>
    have flag := serving.flag (by rw [here]; exact nofun)
    refine Or.inl ⟨coherent,?_,fun _ => rfl⟩
    simp [testAndSet,flag]
  | round round here o t done =>
    by_cases faulty : Faulty (.round round)
    · exact Or.inr (Or.inl faulty)
    · have on : o = .done () := (congrArg Prod.fst done).symm.trans (bodyGoesOn faulty)
      refine Or.inl ⟨coherent,?_,serving.set⟩
      rw [if_pos on]
      exact nofun
  | join running ended => exact absurd ended serving.open_

theorem runServing (ran : run (step handler) (begun h) labels = some p) :
    Serving p ∨ (∃ label ∈ labels, Faulty label) ∨ Signalled handler h labels := by
  have kept := @runKeeps _ _ (step handler) (begun h) p (fun labels p =>
    run (step handler) (begun h) labels = some p ∧
      (Serving p ∨ (∃ label ∈ labels, Faulty label) ∨ Signalled handler h labels))
    ⟨rfl,Or.inl (begunServing h)⟩ (fun labels label r r' inv moved => ?_) labels ran
  · exact kept.2
  · obtain ⟨before,serving | ⟨fault,member,faulty⟩ | signalled⟩ := inv
    · refine ⟨runSnoc.mpr ⟨r,before,moved⟩,?_⟩
      obtain now | faulty | signalled := servingStep serving before (stepMoves moved)
      · exact Or.inl now
      · exact Or.inr (Or.inl ⟨label,by simp,faulty⟩)
      · exact Or.inr (Or.inr signalled)
    · exact ⟨runSnoc.mpr ⟨r,before,moved⟩,Or.inr (Or.inl ⟨fault,by simp [member],faulty⟩)⟩
    · exact ⟨runSnoc.mpr ⟨r,before,moved⟩,Or.inr (Or.inr (signalled.later label))⟩

end Serving

theorem serverEndsOnlyWhenToldOrBroken (handler : IHandler σ) (h : σ) (labels : List Label) (p : Process σ)
    (ran : run (step handler) (begun h) labels = some p) :
    (p.thread = .ended → (∃ label ∈ labels, Faulty label) ∨ Signalled handler h labels) ∧
      ∀ result, p.main = .returned result → result = true ∧ p.thread = .ended := by
  refine ⟨fun ended => ?_,(runCoherent ran).after⟩
  obtain serving | reason := runServing ran
  · exact absurd ended serving.open_
  · exact reason

def ready : Server.Setup := ⟨true,true,true⟩

def busyLabels : List Label := [.construct,.assign,.start,.setUp ready,.test,
  .round ⟨.input (ascii "ping"),true,true,true,true⟩,.test]

theorem busyServerStops : ∃ p q, run (step Server.pingOnly) (begun ()) busyLabels = some p ∧
    run (step Server.pingOnly) (stop p)
      [.round ⟨.input (ascii "ping"),true,true,true,true⟩,.signal,.test,.join] = some q ∧
    ([Label.round ⟨.input (ascii "ping"),true,true,true,true⟩,.signal,.test,.join].filter
        Label.ofThread).length ≤ stepsLeft p.thread ∧
      q.received ≤ p.received + requestsLeft p.thread ∧ (q.thread = .ended ∨ q.isStopped = false) :=
  ⟨_,_,rfl,rfl,stopEndsServer Server.pingOnly () busyLabels
    [.round ⟨.input (ascii "ping"),true,true,true,true⟩,.signal,.test,.join] _ _ rfl rfl rfl⟩

theorem failedBindReturns : ∃ p, run (step Server.pingOnly) (begun ())
      [.signal,.construct,.assign,.start,.setUp ⟨true,true,false⟩,.join] = some p ∧
    ((p.thread = .ended → (∃ label ∈ [Label.signal,.construct,.assign,.start,.setUp ⟨true,true,false⟩,.join],
        Faulty label) ∨ Signalled Server.pingOnly ()
          [.signal,.construct,.assign,.start,.setUp ⟨true,true,false⟩,.join]) ∧
      ∀ result, p.main = .returned result → result = true ∧ p.thread = .ended) :=
  ⟨_,rfl,serverEndsOnlyWhenToldOrBroken Server.pingOnly () _ _ rfl⟩

end Lifecycle
end ChainDB
