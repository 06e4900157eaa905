import ChainDB.Storage
import ChainDB.Library.NamedMaps

/-! Any number of `Storage` objects in one process, in any order of constructions, calls and
destructions, over one directory of databases. -/
namespace ChainDB
open Effects Transition

namespace StorageObjects
open NamedMaps

abbrev Request := NamedMaps.Request Bytes Bytes
abbrev Answer := NamedMaps.Answer Bytes Bytes
abbrev Act := NamedMaps.Act Path Bytes Bytes

structure Label where
  act : Act
  draws : Draws

/-- `none` stands in the place of an object that is destroyed. -/
structure State where
  directory : Directory
  opened : List Path
  objects : List (Option Storage)

def begun (directory : Directory) : State := ⟨directory,[],[]⟩

def State.object (s : State) (k : Nat) : Option Storage := s.objects[k]?.join

def State.world (s : State) (draws : Draws) : World := ⟨s.directory,s.opened,draws,false,[]⟩

def State.leave (s : State) (k : Nat) (object : Option Storage) (w : World) : State :=
  ⟨w.directory,w.opened,s.objects.set k object⟩

def switch (storage : Storage) (change : Action Storage) : Action (Storage × Answer) := do
  let changed ← Exec.attempt change
  pure (changed.getD storage,.flag changed.isSome)

def report (storage : Storage) (effect : Action Unit) : Action (Storage × Answer) := do
  let done ← Exec.attempt effect
  pure (storage,.flag done.isSome)

def perform (storage : Storage) : Request → Action (Storage × Answer)
  | .create => switch storage storage.create
  | .open => switch storage storage.open
  | .close => switch storage storage.close
  | .get key => do
    let value ← Exec.attempt (storage.get key)
    pure (storage,.pair (value.map fun value => (key,value)))
  | .set pairs => report storage (storage.set pairs)
  | .remove => report storage storage.remove

def settle (s : State) (k : Nat) (answer : Answer) : Outcome Halt (Storage × Answer) × World → Option State
  | (.done told,w) => if told.2 = answer then some (s.leave k (some told.1) w) else none
  | _ => none

def step : Step State Label
  | s,⟨.construct path,_⟩ => some {s with objects := s.objects ++ [some ⟨path,false⟩]}
  | s,⟨.call k request answer,draws⟩ =>
    (s.object k).bind fun storage => settle s k answer (perform storage request (s.world draws))
  | s,⟨.destroy k,draws⟩ =>
    (s.object k).map fun storage => s.leave k none (storage.destroy (s.world draws))

abbrev Works (w : World) : Prop := (w.draws 0).ok .database = true

def refusal : Request → Answer
  | .get _ => .pair none
  | _ => .flag false

def Refuses (path : Path) (db : Bool) (w : World) : Request → Prop
  | .create => db = true ∨ ¬ Works w ∨ path ∈ w.opened ∨ w.directory path ≠ none
  | .open => db = true ∨ ¬ Works w ∨ path ∈ w.opened ∨ w.directory path = none
  | .close => db = false
  | .get _ => db = false ∨ ¬ Works w
  | .set _ => db = false ∨ ¬ Works w
  | .remove => ¬ Works w ∨ path ∈ w.opened

/-- From the pointer before the call to the pointer, the answer and the databases after it. -/
inductive Did (path : Path) (w : World) : Bool → Request → Bool → Answer → Directory → List Path → Prop where
  | created (works : Works w) (free : path ∉ w.opened) (vacant : w.directory path = none) :
      Did path w false .create true (.flag true) (Function.update w.directory path (some ∅))
        (path :: w.opened)
  | opened (works : Works w) (free : path ∉ w.opened) (there : w.directory path ≠ none) :
      Did path w false .open true (.flag true) w.directory (path :: w.opened)
  | closed : Did path w true .close false (.flag true) w.directory (w.opened.erase path)
  | got (key : Bytes) (works : Works w) :
      Did path w true (.get key) true
        (.pair (((w.directory path).bind (Finmap.lookup key)).map fun value => (key,value)))
        w.directory w.opened
  | wrote (pairs : List (Bytes × Bytes)) (works : Works w) :
      Did path w true (.set pairs) true (.flag true)
        (Function.update w.directory path ((w.directory path).map (DB.applyBatch pairs))) w.opened
  | removed (db : Bool) (works : Works w) (free : path ∉ w.opened) :
      Did path w db .remove db (.flag true) (Function.update w.directory path none) w.opened
  | refused (db : Bool) (request : Request) (why : Refuses path db w request) :
      Did path w db request db (refusal request) w.directory w.opened

section Calls
variable {path : Path} {db : Bool} {w : World}

def Declines {α : Type} (m : Action α) (w : World) : Prop :=
  ∃ t, m w = (.absent,t) ∧ t.directory = w.directory ∧ t.opened = w.opened

theorem declinesFirst {α β : Type} {m : Action α} (rest : α → Action β) (h : Declines m w) :
    Declines (m >>= rest) w := by
  obtain ⟨t,run,same⟩ := h
  exact ⟨t,Exec.bindOfAbsent run,same⟩

theorem declinesCheck {p : Prop} [Decidable p] (h : ¬ p) : Declines (Exec.check p : Action Unit) w :=
  ⟨w,Exec.checkAbsent.mpr ⟨h,rfl⟩,rfl,rfl⟩

theorem declinesCall (fails : ¬ Works w) : Declines (call .database) w :=
  ⟨w.spend.fail,callAbsent.mpr ⟨Bool.eq_false_of_not_eq_true fails,rfl⟩,rfl,rfl⟩

theorem checked {p : Prop} [Decidable p] {α : Type} (rest : Unit → Action α) (h : p) :
    (Exec.check p >>= rest) w = rest () w := Exec.bindOfDone (Exec.checkDone.mpr ⟨h,rfl⟩)

theorem called {α : Type} (works : Works w) (rest : Draw → Action α) :
    (call .database >>= rest) w = rest (w.draws 0) w.spend :=
  Exec.bindOfDone (callDone.mpr ⟨works,rfl,rfl⟩)

theorem openWorks {options : DB.Options} (works : Works w) : DB.openDatabase options path w =
    if path ∈ w.opened then (.absent,w.spend)
    else if w.directory path = none then
      if options.createIfMissing = true then (.done (),DB.lock path (DB.place path (some ∅) w.spend))
      else (.absent,w.spend)
    else if options.errorIfExists = false then (.done (),DB.lock path w.spend)
    else (.absent,w.spend) := by
  have call_ : call .database w = (.done (w.draws 0),w.spend) := callDone.mpr ⟨works,rfl,rfl⟩
  by_cases free : path ∈ w.opened
  · simp [DB.openDatabase,Exec.bindApply,Exec.check,call_,World.spend,free]
  · cases there : w.directory path with
    | none =>
      by_cases may : options.createIfMissing = true <;>
        simp [DB.openDatabase,Exec.bindApply,Exec.check,call_,World.spend,free,there,may]
    | some map =>
      by_cases may : options.errorIfExists = false <;>
        simp [DB.openDatabase,Exec.bindApply,Exec.check,call_,World.spend,free,there,may]

theorem openFails {options : DB.Options} (fails : ¬ Works w) : Declines (DB.openDatabase options path) w :=
  declinesFirst _ (declinesCall fails)

theorem switchDone {storage changed : Storage} {change : Action Storage} {t : World}
    (run : change w = (.done changed,t)) : switch storage change w = (.done (changed,.flag true),t) := by
  rw [switch,Exec.bindOfDone (Exec.attemptSome.mpr run)]
  rfl

theorem switchDeclines {storage : Storage} {change : Action Storage} (h : Declines change w) :
    ∃ t, switch storage change w = (.done (storage,.flag false),t) ∧
      t.directory = w.directory ∧ t.opened = w.opened := by
  obtain ⟨t,run,same⟩ := h
  refine ⟨t,?_,same⟩
  rw [switch,Exec.bindOfDone (Exec.attemptNone.mpr run)]
  rfl

theorem reportDone {storage : Storage} {effect : Action Unit} {t : World}
    (run : effect w = (.done (),t)) : report storage effect w = (.done (storage,.flag true),t) := by
  rw [report,Exec.bindOfDone (Exec.attemptSome.mpr run)]
  rfl

theorem reportDeclines {storage : Storage} {effect : Action Unit} (h : Declines effect w) :
    ∃ t, report storage effect w = (.done (storage,.flag false),t) ∧
      t.directory = w.directory ∧ t.opened = w.opened := by
  obtain ⟨t,run,same⟩ := h
  refine ⟨t,?_,same⟩
  rw [report,Exec.bindOfDone (Exec.attemptNone.mpr run)]
  rfl

def Does (path : Path) (db : Bool) (request : Request) (w : World) : Prop :=
  ∃ kept answer t, perform ⟨path,db⟩ request w = (.done (⟨path,kept⟩,answer),t) ∧
    Did path w db request kept answer t.directory t.opened

theorem doesNothing {request : Request} (why : Refuses path db w request)
    (declines : ∃ t, perform ⟨path,db⟩ request w = (.done (⟨path,db⟩,refusal request),t) ∧
      t.directory = w.directory ∧ t.opened = w.opened) : Does path db request w := by
  obtain ⟨t,run,directory,opened⟩ := declines
  refine ⟨_,_,t,run,?_⟩
  rw [directory,opened]
  exact .refused db request why

theorem createDoes : Does path db .create w := by
  cases db with
  | true => exact doesNothing (Or.inl rfl) (switchDeclines (declinesFirst _ (declinesCheck Bool.noConfusion)))
  | false =>
    have enter : Storage.create ⟨path,false⟩ w =
        (DB.openDatabase ⟨true,true⟩ path >>= fun _ => pure ⟨path,true⟩) w := checked _ rfl
    by_cases works : Works w
    · by_cases free : path ∈ w.opened
      · refine doesNothing (Or.inr (Or.inr (Or.inl free))) (switchDeclines ⟨w.spend,?_,rfl,rfl⟩)
        rw [enter,Exec.bindOfAbsent (by rw [openWorks works,if_pos free])]
      · by_cases vacant : w.directory path = none
        · refine ⟨true,.flag true,DB.lock path (DB.place path (some ∅) w.spend),switchDone ?_,
            .created works free vacant⟩
          rw [enter,Exec.bindOfDone (by rw [openWorks works,if_neg free,if_pos vacant,if_pos rfl])]
          rfl
        · refine doesNothing (Or.inr (Or.inr (Or.inr vacant))) (switchDeclines ⟨w.spend,?_,rfl,rfl⟩)
          rw [enter,Exec.bindOfAbsent
            (by rw [openWorks works,if_neg free,if_neg vacant,if_neg Bool.noConfusion])]
    · refine doesNothing (Or.inr (Or.inl works)) (switchDeclines ?_)
      rw [Declines,enter]
      exact declinesFirst _ (openFails works)

theorem openDoes : Does path db .open w := by
  cases db with
  | true => exact doesNothing (Or.inl rfl) (switchDeclines (declinesFirst _ (declinesCheck Bool.noConfusion)))
  | false =>
    have enter : Storage.open ⟨path,false⟩ w =
        (DB.openDatabase ⟨false,false⟩ path >>= fun _ => pure ⟨path,true⟩) w := checked _ rfl
    by_cases works : Works w
    · by_cases free : path ∈ w.opened
      · refine doesNothing (Or.inr (Or.inr (Or.inl free))) (switchDeclines ⟨w.spend,?_,rfl,rfl⟩)
        rw [enter,Exec.bindOfAbsent (by rw [openWorks works,if_pos free])]
      · by_cases vacant : w.directory path = none
        · refine doesNothing (Or.inr (Or.inr (Or.inr vacant))) (switchDeclines ⟨w.spend,?_,rfl,rfl⟩)
          rw [enter,Exec.bindOfAbsent
            (by rw [openWorks works,if_neg free,if_pos vacant,if_neg Bool.noConfusion])]
        · refine ⟨true,.flag true,DB.lock path w.spend,switchDone ?_,.opened works free vacant⟩
          rw [enter,Exec.bindOfDone (by rw [openWorks works,if_neg free,if_neg vacant,if_pos rfl])]
          rfl
    · refine doesNothing (Or.inr (Or.inl works)) (switchDeclines ?_)
      rw [Declines,enter]
      exact declinesFirst _ (openFails works)

theorem closeDoes : Does path db .close w := by
  cases db with
  | true => exact ⟨false,.flag true,DB.unlock path w,switchDone (checked _ rfl),.closed⟩
  | false => exact doesNothing rfl (switchDeclines (declinesFirst _ (declinesCheck Bool.noConfusion)))

theorem getDoes (key : Bytes) : Does path db (.get key) w := by
  cases db with
  | false =>
    refine doesNothing (Or.inl rfl) ⟨w,?_,rfl,rfl⟩
    exact Exec.bindOfDone (Exec.attemptNone.mpr (Exec.bindOfAbsent (Exec.checkAbsent.mpr ⟨Bool.noConfusion,rfl⟩)))
  | true =>
    by_cases works : Works w
    · refine ⟨true,_,w.spend,?_,.got key works⟩
      cases found : (w.directory path).bind (Finmap.lookup key) with
      | none =>
        exact Exec.bindOfDone (Exec.attemptNone.mpr (by rw [Storage.getApply,if_pos works,found]; rfl))
      | some value =>
        exact Exec.bindOfDone (Exec.attemptSome.mpr (by rw [Storage.getApply,if_pos works,found]; rfl))
    · refine doesNothing (Or.inr works) ⟨w.spend.fail,?_,rfl,rfl⟩
      exact Exec.bindOfDone (Exec.attemptNone.mpr (by rw [Storage.getApply,if_neg works]))

theorem setDoes (pairs : List (Bytes × Bytes)) : Does path db (.set pairs) w := by
  cases db with
  | false => exact doesNothing (Or.inl rfl) (reportDeclines (declinesFirst _ (declinesCheck Bool.noConfusion)))
  | true =>
    by_cases works : Works w
    · refine ⟨true,.flag true,DB.place path ((w.directory path).map (DB.applyBatch pairs)) w.spend,
        reportDone ?_,.wrote pairs works⟩
      rw [Storage.setApply,if_pos works]
    · refine doesNothing (Or.inr works) (reportDeclines ⟨w.spend.fail,?_,rfl,rfl⟩)
      rw [Storage.setApply,if_neg works]

theorem removeDoes : Does path db .remove w := by
  by_cases works : Works w
  · by_cases free : path ∈ w.opened
    · refine doesNothing (Or.inr free) (reportDeclines ⟨w.spend,?_,rfl,rfl⟩)
      rw [Storage.removeApply,if_pos works,if_neg (not_not.mpr free)]
    · refine ⟨db,.flag true,DB.place path none w.spend,reportDone ?_,.removed db works free⟩
      rw [Storage.removeApply,if_pos works,if_pos free]
  · refine doesNothing (Or.inl works) (reportDeclines ⟨w.spend.fail,?_,rfl,rfl⟩)
    rw [Storage.removeApply,if_neg works]

theorem performDoes (request : Request) : Does path db request w := by
  cases request with
  | create => exact createDoes
  | «open» => exact openDoes
  | close => exact closeDoes
  | get key => exact getDoes key
  | set pairs => exact setDoes pairs
  | remove => exact removeDoes

end Calls

def reading (db : Database) : Bytes → Option Bytes := fun key => db.lookup key

theorem readingBatch (pairs : List (Bytes × Bytes)) (db : Database) :
    reading (DB.applyBatch pairs db) = overlay pairs (reading db) := by
  induction pairs generalizing db with
  | nil => rfl
  | cons pair rest ih =>
    have one : reading (db.insert pair.1 pair.2) = Function.update (reading db) pair.1 (some pair.2) := by
      funext key
      by_cases same : key = pair.1
      · subst same
        rw [reading,Finmap.lookup_insert,Function.update_self]
      · rw [reading,Finmap.lookup_insert_of_ne _ same,Function.update_of_ne same,reading]
    rw [DB.applyBatch,List.foldl_cons]
    exact (ih _).trans (by rw [one]; rfl)

structure Shelved (s : State) (shelf : Shelf Path Bytes Bytes) : Prop where
  content : ∀ path, shelf.content path = (s.directory path).map reading
  names : shelf.names = s.objects.map (Option.map Storage.path)
  holder : ∀ path k, shelf.holder path = some k ↔ s.object k = some ⟨path,true⟩
  locked : ∀ path, path ∈ s.opened ↔ shelf.holder path ≠ none
  once : s.opened.Nodup

def shelfOf (directory : Directory) : Shelf Path Bytes Bytes :=
  ⟨fun path => (directory path).map reading,fun _ => none,[]⟩

/- A label as the maps see it: of what the environment would answer, only whether the database works. -/
def Label.seen (label : Label) : NamedMaps.Label Path Bytes Bytes :=
  ⟨label.act,(label.draws 0).ok .database⟩

theorem shelvedBegun (directory : Directory) : Shelved (begun directory) (shelfOf directory) where
  content _ := rfl
  names := rfl
  holder path k := by simp [shelfOf,begun,State.object]
  locked path := by simp [shelfOf,begun]
  once := List.nodup_nil

section Steps
variable {s : State} {shelf : Shelf Path Bytes Bytes} {k : Nat} {path : Path} {db : Bool}

theorem Shelved.name (shelved : Shelved s shelf) : shelf.name k = (s.object k).map Storage.path := by
  rw [Shelf.name,shelved.names,State.object,List.getElem?_map]
  cases s.objects[k]? <;> rfl

theorem objectAt {storage : Storage} (here : s.object k = some storage) :
    s.objects[k]? = some (some storage) := Option.join_eq_some_iff.mp here

theorem setSame {α : Type} {list : List α} {a : α} (here : list[k]? = some a) : list.set k a = list := by
  obtain ⟨inside,rfl⟩ := List.getElem?_eq_some_iff.mp here
  exact List.set_getElem_self inside

theorem objectLeave {storage : Storage} (here : s.object k = some storage) (object : Option Storage)
    (w : World) (j : Nat) : (s.leave k object w).object j = if j = k then object else s.object j := by
  obtain ⟨inside,_⟩ := List.getElem?_eq_some_iff.mp (objectAt here)
  simp only [State.object,State.leave]
  by_cases same : j = k
  · subst same
    simp [inside]
  · rw [List.getElem?_set_ne (Ne.symm same),if_neg same]

theorem Shelved.mine (shelved : Shelved s shelf) (here : s.object k = some ⟨path,db⟩) :
    shelf.holder path = some k ↔ db = true := by
  rw [shelved.holder,here]
  simp

theorem Shelved.free (shelved : Shelved s shelf) : path ∉ s.opened ↔ shelf.holder path = none := by
  rw [shelved.locked,not_not]

theorem Shelved.vacant (shelved : Shelved s shelf) :
    shelf.content path = none ↔ s.directory path = none := by
  rw [shelved.content,Option.map_eq_none_iff]

theorem Shelved.placed (shelved : Shelved s shelf) (path : Path) (db : Option Database) :
    Shelved {s with directory := Function.update s.directory path db}
      (shelf.place path (db.map reading)) where
  content other := by
    by_cases same : other = path
    · subst same
      simp [Shelf.place]
    · simp [Shelf.place,Function.update_of_ne same,shelved.content]
  names := shelved.names
  holder := shelved.holder
  locked := shelved.locked
  once := shelved.once

theorem Shelved.held (shelved : Shelved s shelf) (here : s.object k = some ⟨path,false⟩)
    (free : path ∉ s.opened) (w : World) (directory : w.directory = s.directory)
    (opened : w.opened = path :: s.opened) :
    Shelved (s.leave k (some ⟨path,true⟩) w) (shelf.hold path (some k)) where
  content other := by
    rw [State.leave,directory]
    exact shelved.content other
  names := by
    rw [State.leave,List.map_set,Shelf.hold,shelved.names]
    exact (setSame (by rw [List.getElem?_map,objectAt here]; rfl)).symm
  holder other j := by
    rw [objectLeave here]
    have vacant := shelved.free.mp free
    by_cases same : other = path
    · subst same
      by_cases mine : j = k
      · subst mine
        simp [Shelf.hold]
      · have others := (shelved.holder other j).not.mp (by rw [vacant]; exact nofun)
        simp [Shelf.hold,mine,Ne.symm mine,others]
    · have others := shelved.holder other j
      by_cases mine : j = k
      · subst mine
        rw [here] at others
        simp [Shelf.hold,same,others,Ne.symm same]
      · simp [Shelf.hold,same,others,mine]
  locked other := by
    rw [State.leave,opened,List.mem_cons,shelved.locked]
    by_cases same : other = path
    · subst same
      simp [Shelf.hold]
    · simp [Shelf.hold,same]
  once := by
    rw [State.leave,opened]
    exact List.nodup_cons.mpr ⟨free,shelved.once⟩

theorem Shelved.released (shelved : Shelved s shelf) (here : s.object k = some ⟨path,true⟩)
    (object : Option Storage) (shut : object = none ∨ object = some ⟨path,false⟩) (w : World)
    (directory : w.directory = s.directory) (opened : w.opened = s.opened.erase path) :
    Shelved (s.leave k object w)
      {shelf.hold path none with names := shelf.names.set k (object.map Storage.path)} where
  content other := by
    rw [State.leave,directory]
    exact shelved.content other
  names := by
    rw [State.leave,List.map_set,shelved.names]
  holder other j := by
    rw [objectLeave here]
    have mine := (shelved.mine here).mpr rfl
    have others := shelved.holder other j
    by_cases same : other = path
    · subst same
      by_cases self : j = k
      · subst self
        rcases shut with rfl | rfl <;> simp [Shelf.hold]
      · rw [mine] at others
        simp [Shelf.hold,self,← others,Ne.symm self]
    · by_cases self : j = k
      · subst self
        rw [here] at others
        rcases shut with rfl | rfl <;> simp [Shelf.hold,same,others,Ne.symm same]
      · simp [Shelf.hold,same,others,self]
  locked other := by
    rw [State.leave,opened]
    by_cases same : other = path
    · subst same
      simp [Shelf.hold,shelved.once.not_mem_erase]
    · rw [List.mem_erase_of_ne same,shelved.locked]
      simp [Shelf.hold,same]
  once := by
    rw [State.leave,opened]
    exact shelved.once.erase path

theorem Shelved.same (shelved : Shelved s shelf) {storage : Storage} (here : s.object k = some storage)
    (w : World) (directory : w.directory = s.directory) (opened : w.opened = s.opened) :
    Shelved (s.leave k (some storage) w) shelf := by
  rw [State.leave,directory,opened,setSame (objectAt here)]
  exact shelved

theorem refusalSeen (shelved : Shelved s shelf) (here : s.object k = some ⟨path,db⟩) {draws : Draws}
    {request : Request} (why : Refuses path db (s.world draws) request) :
    respond shelf k path ((draws 0).ok .database) request = (refusal request,shelf) := by
  cases request with
  | create =>
    refine if_neg fun may => ?_
    rcases why with own | fails | locked | there
    · exact Option.some_ne_none _ (((shelved.mine here).mpr own).symm.trans may.2.1)
    · exact fails may.1
    · exact shelved.free.mpr may.2.1 locked
    · exact there (shelved.vacant.mp may.2.2)
  | «open» =>
    refine if_neg fun may => ?_
    rcases why with own | fails | locked | gone
    · exact Option.some_ne_none _ (((shelved.mine here).mpr own).symm.trans may.2.1)
    · exact fails may.1
    · exact shelved.free.mpr may.2.1 locked
    · exact may.2.2 (shelved.vacant.mpr gone)
  | close =>
    refine if_neg fun may => ?_
    cases why.symm.trans ((shelved.mine here).mp may)
  | get key =>
    refine if_neg fun may => ?_
    rcases why with shut | fails
    · cases shut.symm.trans ((shelved.mine here).mp may.2)
    · exact fails may.1
  | set pairs =>
    refine if_neg fun may => ?_
    rcases why with shut | fails
    · cases shut.symm.trans ((shelved.mine here).mp may.2)
    · exact fails may.1
  | remove =>
    refine if_neg fun may => ?_
    rcases why with fails | locked
    · exact fails may.1
    · exact shelved.free.mpr may.2 locked

theorem callSeen (shelved : Shelved s shelf) (here : s.object k = some ⟨path,db⟩) {draws : Draws}
    {request : Request} {kept : Bool} {answer : Answer} {t : World}
    (did : Did path (s.world draws) db request kept answer t.directory t.opened) :
    (respond shelf k path ((draws 0).ok .database) request).1 = answer ∧
      Shelved (s.leave k (some ⟨path,kept⟩) t)
        (respond shelf k path ((draws 0).ok .database) request).2 := by
  have names : shelf.names.set k (some path) = shelf.names :=
    setSame (by rw [shelved.names,List.getElem?_map,objectAt here]; rfl)
  generalize directory : t.directory = dir at did
  generalize opened : t.opened = locks at did
  cases did with
  | created works free vacant =>
    have may : (draws 0).ok .database = true ∧ shelf.holder path = none ∧ shelf.content path = none :=
      ⟨works,shelved.free.mp free,shelved.vacant.mpr vacant⟩
    rw [respond,if_pos may]
    exact ⟨rfl,(shelved.placed path (some ∅)).held here free t directory opened⟩
  | opened works free there =>
    have may : (draws 0).ok .database = true ∧ shelf.holder path = none ∧ shelf.content path ≠ none :=
      ⟨works,shelved.free.mp free,shelved.vacant.not.mpr there⟩
    rw [respond,if_pos may]
    exact ⟨rfl,shelved.held here free t directory opened⟩
  | closed =>
    rw [respond,if_pos ((shelved.mine here).mpr rfl)]
    have shut := shelved.released here (some ⟨path,false⟩) (Or.inr rfl) t directory opened
    rw [Option.map,names] at shut
    exact ⟨rfl,shut⟩
  | got key works =>
    rw [respond,if_pos ⟨works,(shelved.mine here).mpr rfl⟩,shelved.content,Option.bind_map]
    exact ⟨rfl,shelved.same here t directory opened⟩
  | wrote pairs works =>
    rw [respond,if_pos ⟨works,(shelved.mine here).mpr rfl⟩,shelved.content,Option.map_map]
    have written := (shelved.placed path ((s.directory path).map (DB.applyBatch pairs))).same here t
      directory opened
    rw [Option.map_map] at written
    have batch : overlay pairs ∘ reading = reading ∘ DB.applyBatch pairs :=
      funext fun db => (readingBatch pairs db).symm
    rw [batch]
    exact ⟨rfl,written⟩
  | removed _ works free =>
    rw [respond,if_pos ⟨works,shelved.free.mp free⟩]
    exact ⟨rfl,(shelved.placed path none).same here t directory opened⟩
  | refused _ _ why =>
    rw [refusalSeen shelved here why]
    exact ⟨rfl,shelved.same here t directory opened⟩

theorem destroySeen (shelved : Shelved s shelf) {storage : Storage} (here : s.object k = some storage)
    (draws : Draws) : Shelved (s.leave k none (storage.destroy (s.world draws)))
      {shelf.release storage.path k with names := shelf.names.set k none} := by
  obtain ⟨path,db⟩ := storage
  cases db with
  | true =>
    rw [Shelf.release,if_pos ((shelved.mine here).mpr rfl)]
    exact shelved.released here none (Or.inl rfl) _ rfl rfl
  | false =>
    have other := (shelved.mine here).not.mpr Bool.noConfusion
    rw [Shelf.release,if_neg other]
    exact {
      content := shelved.content
      names := by
        rw [State.leave,List.map_set,shelved.names]
        rfl
      holder := fun name j => by
        rw [objectLeave here,shelved.holder]
        by_cases mine : j = k
        · subst mine
          rw [here]
          simp
        · rw [if_neg mine]
      locked := shelved.locked
      once := shelved.once}

end Steps

theorem constructSeen {s : State} {shelf : Shelf Path Bytes Bytes} (shelved : Shelved s shelf) (path : Path) :
    Shelved {s with objects := s.objects ++ [some ⟨path,false⟩]}
      {shelf with names := shelf.names ++ [some path]} where
  content := shelved.content
  names := by simp [shelved.names]
  holder name k := by
    rw [shelved.holder]
    by_cases old : k < s.objects.length
    · simp only [State.object]
      rw [List.getElem?_append_left old]
    · have gone : s.object k = none := by
        rw [State.object,List.getElem?_eq_none (Nat.not_lt.mp old)]
        rfl
      rw [gone,State.object,List.getElem?_append_right (Nat.not_lt.mp old)]
      cases k - s.objects.length <;> simp
  locked := shelved.locked
  once := shelved.once

theorem stepSeen : Simulates step NamedMaps.step Shelved Label.seen := by
  intro s shelf label t shelved moved
  obtain ⟨act,draws⟩ := label
  cases act with
  | construct path =>
    cases moved
    exact ⟨_,rfl,constructSeen shelved path⟩
  | call k request answer =>
    obtain ⟨storage,here,settled⟩ := Option.bind_eq_some_iff.mp moved
    have name : shelf.name k = some storage.path := by rw [shelved.name,here]; rfl
    obtain ⟨kept,told,u,run,did⟩ := @performDoes storage.path storage.db (s.world draws) request
    rw [run,settle] at settled
    split at settled
    · rename_i same
      cases settled
      obtain ⟨answered,after⟩ := callSeen shelved here did
      refine ⟨_,?_,after⟩
      change (shelf.name k).bind _ = _
      rw [name,Option.bind_some,if_pos (answered.trans same)]
    · cases settled
  | destroy k =>
    obtain ⟨storage,here,gone⟩ := Option.map_eq_some_iff.mp moved
    subst gone
    refine ⟨_,?_,destroySeen shelved here draws⟩
    change (shelf.name k).map _ = _
    rw [shelved.name,here]
    rfl

theorem objectsAreNamedMaps (directory : Directory) (labels : List Label) (s : State)
    (ran : run step (begun directory) labels = some s) :
    ∃ shelf, run NamedMaps.step (shelfOf directory) (labels.map Label.seen) = some shelf ∧
      Shelved s shelf :=
  runSimulates stepSeen (shelvedBegun directory) ran

def works (act : Act) : Label := ⟨act,fun _ => ⟨fun _ => true,fun _ => 0⟩⟩

def fails (act : Act) : Label := ⟨act,fun _ => ⟨fun _ => false,fun _ => 0⟩⟩

def samplePairs : List (Bytes × Bytes) := [(ascii "Key 1",ascii "Value 1"),(ascii "Key 2",ascii "Value 2")]

def sampleActs : List Label := [works (.construct (ascii "db")),works (.construct (ascii "db")),
  fails (.call 0 .create (.flag false)),works (.call 0 .create (.flag true)),
  works (.call 1 .open (.flag false)),works (.call 0 (.set samplePairs) (.flag true)),
  works (.call 1 .remove (.flag false)),works (.call 1 (.get (ascii "Key 1")) (.pair none)),
  works (.destroy 0),works (.call 1 .create (.flag false)),works (.call 1 .open (.flag true)),
  works (.call 1 (.get (ascii "Key 2")) (.pair (some (ascii "Key 2",ascii "Value 2")))),
  works (.call 1 .close (.flag true)),works (.call 1 .close (.flag false)),
  works (.call 1 .remove (.flag true))]

theorem sampleActsAreNamedMaps : ∃ s shelf, run step (begun fun _ => none) sampleActs = some s ∧
    run NamedMaps.step (shelfOf fun _ => none) (sampleActs.map Label.seen) = some shelf ∧
    Shelved s shelf := by
  obtain ⟨s,ran⟩ := Option.isSome_iff_exists.mp
    (by decide +kernel : (run step (begun fun _ => none) sampleActs).isSome = true)
  obtain ⟨shelf,seen,shelved⟩ := objectsAreNamedMaps _ _ s ran
  exact ⟨s,shelf,ran,seen,shelved⟩

end StorageObjects
end ChainDB
