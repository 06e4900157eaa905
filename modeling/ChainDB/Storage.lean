import ChainDB.World

/-! Storage.cpp over LevelDB. A directory maps every path to its database; `opened` lists
the paths locked by an open handle, and LevelDB lets each path be open once. -/
namespace ChainDB
open Effects

namespace DB

structure Options where
  createIfMissing : Bool
  errorIfExists : Bool

def lock (path : Path) (w : World) : World := {w with opened := path :: w.opened}

def unlock (path : Path) (w : World) : World := {w with opened := w.opened.erase path}

def place (path : Path) (content : Option Database) (w : World) : World :=
  {w with directory := Function.update w.directory path content}

def openDatabase (options : Options) (path : Path) : Action Unit := do
  let _ ← call .database
  let w ← Exec.read
  Exec.check (path ∉ w.opened)
  match w.directory path with
  | some _ => do
    Exec.check (options.errorIfExists = false)
    Exec.modify (lock path)
  | none => do
    Exec.check (options.createIfMissing = true)
    Exec.modify (fun w => lock path (place path (some ∅) w))

def get (path : Path) (key : Bytes) : Action Bytes := do
  let _ ← call .database
  let w ← Exec.read
  Exec.ofOption ((w.directory path).bind (Finmap.lookup key))

def applyBatch (batch : List (Bytes × Bytes)) (db : Database) : Database :=
  batch.foldl (fun db pair => db.insert pair.1 pair.2) db

def write (path : Path) (batch : List (Bytes × Bytes)) : Action Unit := do
  let _ ← call .database
  Exec.modify (fun w => place path ((w.directory path).map (applyBatch batch)) w)

def destroyDatabase (path : Path) : Action Unit := do
  let _ ← call .database
  let w ← Exec.read
  Exec.check (path ∉ w.opened)
  Exec.modify (place path none)

end DB

/-- `db` says whether the pointer `_db` is set. -/
structure Storage where
  path : Path
  db : Bool
  deriving DecidableEq, Repr

namespace Storage

def create (storage : Storage) : Action Storage := do
  Exec.check (storage.db = false)
  DB.openDatabase ⟨true,true⟩ storage.path
  pure {storage with db := true}

def «open» (storage : Storage) : Action Storage := do
  Exec.check (storage.db = false)
  DB.openDatabase ⟨false,false⟩ storage.path
  pure {storage with db := true}

def close (storage : Storage) : Action Storage := do
  Exec.check (storage.db = true)
  Exec.modify (DB.unlock storage.path)
  pure {storage with db := false}

def get (storage : Storage) (key : Bytes) : Action Bytes := do
  Exec.check (storage.db = true)
  DB.get storage.path key

def set (storage : Storage) (pairs : List (Bytes × Bytes)) : Action Unit := do
  Exec.check (storage.db = true)
  DB.write storage.path pairs

def remove (storage : Storage) : Action Unit := DB.destroyDatabase storage.path

def destroy (storage : Storage) (w : World) : World :=
  if storage.db then DB.unlock storage.path w else w

/- `Storage storage(path); if (!storage.open()) return …;` followed by the rest of the
function: the destructor runs at every exit of the body. -/
def session {α : Type} (acquire : Storage → Action Storage) (path : Path)
    (body : Storage → Action α) : Action α := do
  let storage ← acquire ⟨path,false⟩
  Exec.ensuring (body storage) storage.destroy

def within (path : Path) (w : World) : World := DB.lock path w.spend

theorem openSession {α : Type} (path : Path) (body : Storage → Action α) (w : World) :
    session Storage.open path body w =
      if (w.draws 0).ok .database = true then
        if path ∉ w.opened ∧ w.directory path ≠ none then
          Exec.ensuring (body ⟨path,true⟩) (DB.unlock path) (within path w)
        else (.absent,w.spend)
      else (.absent,w.spend.fail) := by
  by_cases ok : (w.draws 0).ok .database = true
  · by_cases free : path ∈ w.opened
    · simp [session,Storage.open,DB.openDatabase,Exec.bindApply,Exec.check,call,ok,World.spend,free]
    · cases found : w.directory path with
      | none =>
        simp [session,Storage.open,DB.openDatabase,Exec.bindApply,Exec.check,call,ok,World.spend,free,
          found]
      | some db =>
        simp [session,Storage.open,DB.openDatabase,Exec.bindApply,Exec.check,call,ok,World.spend,free,
          found,within]
        rfl
  · simp [session,Storage.open,DB.openDatabase,Exec.bindApply,Exec.check,call,ok]

theorem createSession {α : Type} (path : Path) (body : Storage → Action α) (w : World) :
    session Storage.create path body w =
      if (w.draws 0).ok .database = true then
        if path ∉ w.opened ∧ w.directory path = none then
          Exec.ensuring (body ⟨path,true⟩) (DB.unlock path)
            (within path (DB.place path (some ∅) w))
        else (.absent,w.spend)
      else (.absent,w.spend.fail) := by
  by_cases ok : (w.draws 0).ok .database = true
  · by_cases free : path ∈ w.opened
    · simp [session,Storage.create,DB.openDatabase,Exec.bindApply,Exec.check,call,ok,World.spend,free]
    · cases found : w.directory path with
      | none =>
        simp [session,Storage.create,DB.openDatabase,Exec.bindApply,Exec.check,call,ok,World.spend,free,
          found,within]
        rfl
      | some db =>
        simp [session,Storage.create,DB.openDatabase,Exec.bindApply,Exec.check,call,ok,World.spend,free,
          found]
  · simp [session,Storage.create,DB.openDatabase,Exec.bindApply,Exec.check,call,ok]

theorem createSessionOpens {α : Type} {path : Path} {body : Storage → Action α} {w : World}
    (works : (w.draws 0).ok .database = true) (free : path ∉ w.opened)
    (vacant : w.directory path = none) :
    session Storage.create path body w = Exec.ensuring (body ⟨path,true⟩) (DB.unlock path)
      (within path (DB.place path (some ∅) w)) := by
  rw [createSession,if_pos works,if_pos ⟨free,vacant⟩]

theorem createSessionRefuses {α : Type} {path : Path} {body : Storage → Action α} {w : World}
    (works : (w.draws 0).ok .database = true) (there : w.directory path ≠ none) :
    session Storage.create path body w = (.absent,w.spend) := by
  rw [createSession,if_pos works,if_neg fun both => there both.2]

theorem getApply (path : Path) (key : Bytes) (w : World) :
    get ⟨path,true⟩ key w =
      if (w.draws 0).ok .database = true then
        Exec.ofOption ((w.directory path).bind (Finmap.lookup key)) w.spend
      else (.absent,w.spend.fail) := by
  by_cases ok : (w.draws 0).ok .database = true <;>
    simp [get,DB.get,Exec.bindApply,Exec.check,call,ok,World.spend]

theorem setApply (path : Path) (pairs : List (Bytes × Bytes)) (w : World) :
    set ⟨path,true⟩ pairs w =
      if (w.draws 0).ok .database = true then
        (.done (),DB.place path ((w.directory path).map (DB.applyBatch pairs)) w.spend)
      else (.absent,w.spend.fail) := by
  by_cases ok : (w.draws 0).ok .database = true <;>
    simp [set,DB.write,Exec.bindApply,Exec.check,call,ok,World.spend]

theorem removeApply (path : Path) (db : Bool) (w : World) :
    remove ⟨path,db⟩ w =
      if (w.draws 0).ok .database = true then
        if path ∉ w.opened then (.done (),DB.place path none w.spend) else (.absent,w.spend)
      else (.absent,w.spend.fail) := by
  by_cases ok : (w.draws 0).ok .database = true
  · by_cases free : path ∈ w.opened <;>
      simp [remove,DB.destroyDatabase,Exec.bindApply,Exec.check,call,ok,World.spend,free]
  · simp [remove,DB.destroyDatabase,Exec.bindApply,call,ok]

theorem placeForward (path : Path) (content : Option Database) (w : World) :
    Forward w (DB.place path content w.spend) := ⟨rfl,id,fun _ h => h,1,fun _ => rfl⟩

theorem getDone {path key w value t} (h : get ⟨path,true⟩ key w = (.done value,t)) :
    (w.directory path).bind (Finmap.lookup key) = some value ∧ t = w.spend := by
  rw [getApply] at h
  split at h
  · obtain ⟨found,rfl⟩ := Exec.ofOptionDone.mp h
    exact ⟨found,rfl⟩
  · cases h

theorem getAbsent {path key w t} (h : get ⟨path,true⟩ key w = (.absent,t)) :
    t.failed = true ∨ (w.directory path).bind (Finmap.lookup key) = none := by
  rw [getApply] at h
  split at h
  · exact Or.inr (Exec.ofOptionAbsent.mp h).1
  · cases h
    exact Or.inl rfl

theorem getSteady (path : Path) (key : Bytes) : Steady (get ⟨path,true⟩ key) := by
  refine ⟨fun w => ?_,fun w e t h => ?_⟩
  · rw [getApply]
    split
    · exact IsTrans.trans _ _ _ (spendQuiet w) (Exec.keepsOfOption _ _)
    · exact failQuiet w
  · rw [getApply] at h
    split at h
    · exact Exec.totalOfOption _ _ _ _ h
    · cases h

theorem setDone {path pairs w u t} (h : set ⟨path,true⟩ pairs w = (.done u,t)) :
    t = DB.place path ((w.directory path).map (DB.applyBatch pairs)) w.spend := by
  rw [setApply] at h
  split at h <;> cases h
  rfl

theorem setAbsent {path pairs w t} (h : set ⟨path,true⟩ pairs w = (.absent,t)) :
    t.failed = true ∧ Quiet w t := by
  rw [setApply] at h
  split at h <;> cases h
  exact ⟨rfl,failQuiet w⟩

theorem setTotal (path : Path) (pairs : List (Bytes × Bytes)) : Exec.Total (set ⟨path,true⟩ pairs) := by
  intro w e t h
  rw [setApply] at h
  split at h <;> cases h

theorem releasedForward {path : Path} {w u : World} (h : Forward (within path w) u) :
    Forward w (DB.unlock path u) where
  opened := by
    have lifted := h.opened
    simp only [within,DB.lock,World.spend] at lifted
    simp [DB.unlock,lifted]
  failed := h.failed
  hashed := h.hashed
  spent := by
    obtain ⟨n,later⟩ := h.spent
    exact ⟨n + 1,later⟩

theorem openSessionCases {α : Type} {path : Path} {body : Storage → Action α} {w t : World}
    {o : Outcome Halt α} (h : session Storage.open path body w = (o,t)) :
    (o = .absent ∧ Quiet w t ∧ (t.failed = true ∨ path ∈ w.opened ∨ w.directory path = none)) ∨
    ∃ db u, w.directory path = some db ∧ path ∉ w.opened ∧
      body ⟨path,true⟩ (within path w) = (o,u) ∧ t = DB.unlock path u := by
  rw [openSession] at h
  split at h
  · split at h
    · rename_i free
      obtain ⟨u,run,rfl⟩ := Exec.ensuringApply.mp h
      obtain ⟨db,found⟩ := Option.ne_none_iff_exists'.mp free.2
      exact Or.inr ⟨db,u,found,free.1,run,rfl⟩
    · rename_i shut
      cases h
      refine Or.inl ⟨rfl,spendQuiet w,Or.inr ?_⟩
      by_cases locked : path ∈ w.opened
      · exact Or.inl locked
      · exact Or.inr (not_not.mp (fun found => shut ⟨locked,found⟩))
  · cases h
    exact Or.inl ⟨rfl,failQuiet w,Or.inl rfl⟩

theorem createSessionCases {α : Type} {path : Path} {body : Storage → Action α} {w t : World}
    {o : Outcome Halt α} (h : session Storage.create path body w = (o,t)) :
    (o = .absent ∧ Quiet w t ∧ (t.failed = true ∨ path ∈ w.opened ∨ w.directory path ≠ none)) ∨
    ∃ u, w.directory path = none ∧ path ∉ w.opened ∧
      body ⟨path,true⟩ (within path (DB.place path (some ∅) w)) = (o,u) ∧ t = DB.unlock path u := by
  rw [createSession] at h
  split at h
  · split at h
    · rename_i free
      obtain ⟨u,run,rfl⟩ := Exec.ensuringApply.mp h
      exact Or.inr ⟨u,free.2,free.1,run,rfl⟩
    · rename_i shut
      cases h
      refine Or.inl ⟨rfl,spendQuiet w,Or.inr ?_⟩
      by_cases locked : path ∈ w.opened
      · exact Or.inl locked
      · exact Or.inr (fun free => shut ⟨locked,free⟩)
  · cases h
    exact Or.inl ⟨rfl,failQuiet w,Or.inl rfl⟩

theorem openSessionQuiet {α : Type} {path : Path} {body : Storage → Action α}
    (quiet : Exec.Keeps Quiet (body ⟨path,true⟩)) :
    Exec.Keeps Quiet (session Storage.open path body) := by
  refine Exec.keepsIff.mpr fun w o t h => ?_
  rcases openSessionCases h with ⟨_,still,_⟩ | ⟨_,u,_,_,run,rfl⟩
  · exact still
  · have inner := quiet.apply run
    exact ⟨releasedForward inner.toForward,inner.directory⟩

theorem openSessionTotal {α : Type} {path : Path} {body : Storage → Action α}
    (total : Exec.Total (body ⟨path,true⟩)) : Exec.Total (session Storage.open path body) := by
  intro w e t h
  rcases openSessionCases h with ⟨absent,_⟩ | ⟨_,u,_,_,run,_⟩
  · cases absent
  · exact total _ e u run

theorem openSessionSteady {α : Type} {path : Path} {body : Storage → Action α}
    (steady : Steady (body ⟨path,true⟩)) : Steady (session Storage.open path body) :=
  ⟨openSessionQuiet steady.quiet,openSessionTotal steady.total⟩

end Storage
end ChainDB
