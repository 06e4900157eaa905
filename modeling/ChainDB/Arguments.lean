import ChainDB.World
import ChainDB.Library.Numeral

/-! IApplication.cpp: the command line of the programs as pairs of a key and a value. The handlers point
at members of the application, which the parser fills in as it goes. -/
namespace ChainDB
open Effects

inductive Exception where
  | invalidArgument | outOfRange
  deriving DecidableEq, Repr

def FitsInt (n : Int) : Prop := -2^31 ≤ n ∧ n < 2^31

instance (n : Int) : Decidable (FitsInt n) := inferInstanceAs (Decidable (_ ∧ _))

def stoi (text : Bytes) : Except Exception Int32 :=
  match Numeral.integerPrefix text with
  | none => .error .invalidArgument
  | some n => if FitsInt n then .ok (Int32.ofInt n) else .error .outOfRange

namespace IApplication

inductive ArgData (β ι σ : Type) where
  | bool (target : β)
  | int (target : ι)
  | string (target : σ)
  deriving DecidableEq, Repr

abbrev HandlerMap (β ι σ : Type) := List (Bytes × ArgData β ι σ)

structure Targets (β ι σ : Type) where
  bool : β → Bool
  int : ι → Int32
  string : σ → Bytes

variable {β ι σ : Type} [DecidableEq β] [DecidableEq ι] [DecidableEq σ]

namespace Targets

def setBool (target : β) (value : Bool) (members : Targets β ι σ) : Targets β ι σ :=
  {members with bool := Function.update members.bool target value}

def setInt (target : ι) (value : Int32) (members : Targets β ι σ) : Targets β ι σ :=
  {members with int := Function.update members.int target value}

def setString (target : σ) (value : Bytes) (members : Targets β ι σ) : Targets β ι σ :=
  {members with string := Function.update members.string target value}

end Targets

/- What one value does to the member of its key; only `std::invalid_argument` is caught. -/
def assign (data : ArgData β ι σ) (text : Bytes) : Exec (Targets β ι σ) Exception Unit :=
  match data with
  | .bool target => Exec.modify (Targets.setBool target (decide (text = ascii "true")))
  | .int target =>
    match stoi text with
    | .ok n => Exec.modify (Targets.setInt target n)
    | .error .invalidArgument => Exec.absent
    | .error .outOfRange => Exec.halt .outOfRange
  | .string target => Exec.modify (Targets.setString target text)

def parsePairs (handlers : HandlerMap β ι σ) : List Bytes → Exec (Targets β ι σ) Exception Unit
  | [] => pure ()
  | [_] => Exec.absent
  | key :: text :: rest =>
    match handlers.lookup key with
    | none => Exec.absent
    | some data => do
      assign data text
      parsePairs handlers rest

def parseArgs (handlers : HandlerMap β ι σ) (argv : List Bytes) : Exec (Targets β ι σ) Exception Unit :=
  parsePairs handlers (argv.drop 1)

def pairsOf : List Bytes → Option (List (Bytes × Bytes))
  | [] => some []
  | [_] => none
  | key :: text :: rest => (pairsOf rest).map ((key,text) :: ·)

/- The key is known, and the value of an int key is a numeral as a whole and in range. -/
def WellFormed (handlers : HandlerMap β ι σ) (pair : Bytes × Bytes) : Prop :=
  ∃ data, handlers.lookup pair.1 = some data ∧
    ∀ target, data = .int target → ∃ n, Numeral.wholeInteger pair.2 = some n ∧ FitsInt n

def Grammar (handlers : HandlerMap β ι σ) (args : List Bytes) : Prop :=
  ∃ pairs, pairsOf args = some pairs ∧ ∀ pair ∈ pairs, WellFormed handlers pair

inductive Value where
  | bool (value : Bool)
  | int (value : Int)
  | string (value : Bytes)
  deriving DecidableEq, Repr

def Targets.value (members : Targets β ι σ) : ArgData β ι σ → Value
  | .bool target => .bool (members.bool target)
  | .int target => .int (members.int target).toInt
  | .string target => .string (members.string target)

def meaning (read : Bytes → Option Int) : ArgData β ι σ → Bytes → Value
  | .bool _,text => .bool (decide (text = ascii "true"))
  | .int _,text => .int ((read text).getD 0)
  | .string _,text => .string text

def lastFor (handlers : HandlerMap β ι σ) (data : ArgData β ι σ) (pairs : List (Bytes × Bytes)) :
    Option (Bytes × Bytes) :=
  pairs.reverse.find? fun pair => decide (handlers.lookup pair.1 = some data)

def finalValue (read : Bytes → Option Int) (handlers : HandlerMap β ι σ) (pairs : List (Bytes × Bytes))
    (before : Targets β ι σ) (data : ArgData β ι σ) : Value :=
  match lastFor handlers data pairs with
  | some pair => meaning read data pair.2
  | none => before.value data

theorem stoiOk {text : Bytes} {n : Int32} (h : stoi text = .ok n) :
    Numeral.integerPrefix text = some n.toInt := by
  unfold stoi at h
  cases read : Numeral.integerPrefix text with
  | none =>
    simp only [read] at h
    cases h
  | some z =>
    simp only [read] at h
    split at h <;> cases h
    rename_i fits
    rw [Int32.toInt_ofInt_of_le fits.1 fits.2]

theorem stoiWhole {text : Bytes} {z : Int} (whole : Numeral.wholeInteger text = some z)
    (fits : FitsInt z) : ∃ n, stoi text = .ok n := by
  refine ⟨Int32.ofInt z,?_⟩
  simp only [stoi,Numeral.wholeIsPrefix whole,if_pos fits]

omit [DecidableEq β] [DecidableEq ι] [DecidableEq σ] in
theorem wholeMeaning {data : ArgData β ι σ} {text : Bytes}
    (whole : ∀ target, data = .int target → ∃ n, Numeral.wholeInteger text = some n ∧ FitsInt n) :
    meaning Numeral.wholeInteger data text = meaning Numeral.integerPrefix data text := by
  cases data with
  | bool target => rfl
  | string target => rfl
  | int target =>
    obtain ⟨n,read,_⟩ := whole target rfl
    simp only [meaning,read,Numeral.wholeIsPrefix read]

def Readable (data : ArgData β ι σ) (text : Bytes) : Prop :=
  ∀ target, data = .int target → ∃ n, stoi text = .ok n

theorem assignRuns {data : ArgData β ι σ} {text : Bytes} (readable : Readable data text)
    (before : Targets β ι σ) : ∃ after, assign data text before = (.done (),after) := by
  cases data with
  | bool target => exact ⟨_,rfl⟩
  | string target => exact ⟨_,rfl⟩
  | int target =>
    obtain ⟨n,read⟩ := readable target rfl
    simp only [assign,read]
    exact ⟨_,rfl⟩

theorem setBoolValue (target : β) (flag : Bool) (members : Targets β ι σ) (other : ArgData β ι σ) :
    (members.setBool target flag).value other =
      if .bool target = other then .bool flag else members.value other := by
  cases other with
  | bool place =>
    by_cases same : target = place
    · simp [Targets.value,Targets.setBool,same]
    · simp [Targets.value,Targets.setBool,same,Function.update_of_ne (Ne.symm same)]
  | int place => simp [Targets.value,Targets.setBool]
  | string place => simp [Targets.value,Targets.setBool]

theorem setIntValue (target : ι) (n : Int32) (members : Targets β ι σ) (other : ArgData β ι σ) :
    (members.setInt target n).value other =
      if .int target = other then .int n.toInt else members.value other := by
  cases other with
  | bool place => simp [Targets.value,Targets.setInt]
  | int place =>
    by_cases same : target = place
    · simp [Targets.value,Targets.setInt,same]
    · simp [Targets.value,Targets.setInt,same,Function.update_of_ne (Ne.symm same)]
  | string place => simp [Targets.value,Targets.setInt]

theorem setStringValue (target : σ) (text : Bytes) (members : Targets β ι σ) (other : ArgData β ι σ) :
    (members.setString target text).value other =
      if .string target = other then .string text else members.value other := by
  cases other with
  | bool place => simp [Targets.value,Targets.setString]
  | int place => simp [Targets.value,Targets.setString]
  | string place =>
    by_cases same : target = place
    · simp [Targets.value,Targets.setString,same]
    · simp [Targets.value,Targets.setString,same,Function.update_of_ne (Ne.symm same)]

theorem assignDone {data : ArgData β ι σ} {text : Bytes} {before after : Targets β ι σ} {u : Unit}
    (h : assign data text before = (.done u,after)) : Readable data text ∧
      ∀ other, after.value other =
        if data = other then meaning Numeral.integerPrefix data text else before.value other := by
  cases data with
  | bool target =>
    cases h
    exact ⟨fun _ none => (by cases none),setBoolValue target _ before⟩
  | string target =>
    cases h
    exact ⟨fun _ none => (by cases none),setStringValue target text before⟩
  | int target =>
    cases read : stoi text with
    | error e =>
      simp only [assign,read] at h
      cases e <;> cases h
    | ok n =>
      simp only [assign,read] at h
      cases h
      refine ⟨fun _ _ => ⟨n,read⟩,fun other => ?_⟩
      rw [meaning,stoiOk read]
      exact setIntValue target n before other

theorem assignHalt {data : ArgData β ι σ} {text : Bytes} {before after : Targets β ι σ} {e : Exception}
    (h : assign data text before = (.halt e,after)) :
    ∃ target, data = .int target ∧ stoi text = .error .outOfRange := by
  cases data with
  | bool target => cases h
  | string target => cases h
  | int target =>
    cases read : stoi text with
    | ok n =>
      simp only [assign,read] at h
      cases h
    | error e =>
      simp only [assign,read] at h
      cases e <;> cases h
      exact ⟨target,rfl,rfl⟩

def Taken (handlers : HandlerMap β ι σ) (pair : Bytes × Bytes) : Prop :=
  ∃ data, handlers.lookup pair.1 = some data ∧ Readable data pair.2

def Accepted (handlers : HandlerMap β ι σ) (args : List Bytes) : Prop :=
  ∃ pairs, pairsOf args = some pairs ∧ ∀ pair ∈ pairs, Taken handlers pair

section Parsing
variable {handlers : HandlerMap β ι σ}

omit [DecidableEq β] [DecidableEq ι] [DecidableEq σ] in
theorem acceptedNext {key text : Bytes} {rest : List Bytes} :
    Accepted handlers (key :: text :: rest) ↔
      Taken handlers (key,text) ∧ Accepted handlers rest := by
  unfold Accepted
  simp only [pairsOf,Option.map_eq_some_iff]
  constructor
  · rintro ⟨_,⟨pairs,split,rfl⟩,taken⟩
    exact ⟨taken _ List.mem_cons_self,pairs,split,fun pair inside => taken pair (.tail _ inside)⟩
  · rintro ⟨first,pairs,split,taken⟩
    refine ⟨_,⟨pairs,split,rfl⟩,fun pair inside => ?_⟩
    rcases List.mem_cons.mp inside with rfl | later
    · exact first
    · exact taken pair later

theorem pairPassed {key text : Bytes} {rest : List Bytes} {data : ArgData β ι σ}
    {before middle : Targets β ι σ} (found : handlers.lookup key = some data)
    (first : assign data text before = (.done (),middle)) :
    parsePairs handlers (key :: text :: rest) before = parsePairs handlers rest middle := by
  simp only [parsePairs,found]
  exact Exec.bindOfDone first

theorem pairDone {key text : Bytes} {rest : List Bytes} {before after : Targets β ι σ} {u : Unit}
    (h : parsePairs handlers (key :: text :: rest) before = (.done u,after)) :
    ∃ data middle, handlers.lookup key = some data ∧ assign data text before = (.done (),middle) ∧
      parsePairs handlers rest middle = (.done u,after) := by
  cases found : handlers.lookup key with
  | none =>
    simp only [parsePairs,found] at h
    cases h
  | some data =>
    simp only [parsePairs,found] at h
    obtain ⟨_,middle,first,later⟩ := Exec.bindDone.mp h
    exact ⟨data,middle,rfl,first,later⟩

theorem parsePairsDone {args : List Bytes} {before after : Targets β ι σ} {u : Unit}
    (h : parsePairs handlers args before = (.done u,after)) : Accepted handlers args := by
  induction args using pairsOf.induct generalizing before with
  | case1 => exact ⟨[],rfl,fun pair none => by cases none⟩
  | case2 => cases h
  | case3 key text rest ih =>
    obtain ⟨data,middle,found,first,later⟩ := pairDone h
    exact acceptedNext.mpr ⟨⟨data,found,(assignDone first).1⟩,ih later⟩

theorem parsePairsRuns {args : List Bytes} (accepted : Accepted handlers args)
    (before : Targets β ι σ) : ∃ after, parsePairs handlers args before = (.done (),after) := by
  induction args using pairsOf.induct generalizing before with
  | case1 => exact ⟨before,rfl⟩
  | case2 =>
    obtain ⟨pairs,none,_⟩ := accepted
    cases none
  | case3 key text rest ih =>
    obtain ⟨⟨data,found,readable⟩,later⟩ := acceptedNext.mp accepted
    obtain ⟨middle,first⟩ := assignRuns readable before
    obtain ⟨after,run⟩ := ih later middle
    exact ⟨after,(pairPassed found first).trans run⟩

theorem finalValueNext {key text : Bytes} {data : ArgData β ι σ} {pairs : List (Bytes × Bytes)}
    {before middle : Targets β ι σ} (found : handlers.lookup key = some data)
    (stored : ∀ other, middle.value other =
      if data = other then meaning Numeral.integerPrefix data text else before.value other)
    (other : ArgData β ι σ) :
    finalValue Numeral.integerPrefix handlers ((key,text) :: pairs) before other =
      finalValue Numeral.integerPrefix handlers pairs middle other := by
  simp only [finalValue,lastFor,List.reverse_cons,List.find?_append,List.find?_singleton,found,
    Option.some.injEq,decide_eq_true_eq]
  cases pairs.reverse.find? fun pair => decide (handlers.lookup pair.1 = some other) with
  | some pair => rfl
  | none =>
    rw [stored]
    by_cases same : data = other
    · simp [same]
    · simp [same]

theorem parsePairsValue {args : List Bytes} {pairs : List (Bytes × Bytes)} {before after : Targets β ι σ}
    {u : Unit} (split : pairsOf args = some pairs)
    (h : parsePairs handlers args before = (.done u,after)) (data : ArgData β ι σ) :
    after.value data = finalValue Numeral.integerPrefix handlers pairs before data := by
  induction args using pairsOf.induct generalizing before pairs with
  | case1 =>
    cases split
    cases h
    rfl
  | case2 => cases h
  | case3 key text rest ih =>
    obtain ⟨own,middle,found,first,later⟩ := pairDone h
    obtain ⟨tail,splitTail,rfl⟩ := Option.map_eq_some_iff.mp split
    rw [finalValueNext found (assignDone first).2]
    exact ih splitTail later

def Overflows (handlers : HandlerMap β ι σ) (args : List Bytes) : Prop :=
  ∃ parsed key text more, args = parsed ++ key :: text :: more ∧ Accepted handlers parsed ∧
    ∃ target, handlers.lookup key = some (.int target) ∧ stoi text = .error .outOfRange

theorem parsePairsAppend {parsed rest : List Bytes} {before middle : Targets β ι σ} {u : Unit}
    (h : parsePairs handlers parsed before = (.done u,middle)) :
    parsePairs handlers (parsed ++ rest) before = parsePairs handlers rest middle := by
  induction parsed using pairsOf.induct generalizing before with
  | case1 =>
    cases h
    rfl
  | case2 => cases h
  | case3 key text parsed ih =>
    obtain ⟨data,next,found,first,later⟩ := pairDone h
    exact (pairPassed found first).trans (ih later)

theorem parsePairsHalt {args : List Bytes} {before : Targets β ι σ} :
    (∃ e after, parsePairs handlers args before = (.halt e,after)) ↔ Overflows handlers args := by
  constructor
  · rintro ⟨e,after,h⟩
    induction args using pairsOf.induct generalizing before with
    | case1 => cases h
    | case2 => cases h
    | case3 key text rest ih =>
      cases found : handlers.lookup key with
      | none =>
        simp only [parsePairs,found] at h
        cases h
      | some data =>
        simp only [parsePairs,found] at h
        rcases Exec.bindHalt.mp h with first | ⟨_,middle,first,later⟩
        · obtain ⟨target,rfl,range⟩ := assignHalt first
          exact ⟨[],key,text,rest,rfl,⟨[],rfl,fun _ none => (by cases none)⟩,target,found,range⟩
        · obtain ⟨parsed,other,long,more,rfl,accepted,overflow⟩ := ih later
          have taken : Taken handlers (key,text) := ⟨data,found,(assignDone first).1⟩
          exact ⟨key :: text :: parsed,other,long,more,rfl,acceptedNext.mpr ⟨taken,accepted⟩,overflow⟩
  · rintro ⟨parsed,key,text,more,rfl,accepted,target,found,range⟩
    obtain ⟨middle,run⟩ := parsePairsRuns accepted before
    refine ⟨.outOfRange,middle,(parsePairsAppend run).trans ?_⟩
    simp only [parsePairs,found]
    exact Exec.bindOfHalt (by simp only [assign,range]; rfl)

/- Arguments that begin with a key without a value, or with a pair outside the grammar. -/
def Offending (handlers : HandlerMap β ι σ) (rest : List Bytes) : Prop :=
  (∃ key, rest = [key]) ∨
    ∃ key text more, rest = key :: text :: more ∧ ¬ WellFormed handlers (key,text)

/-- On `false` the members are what the pairs before the first offending one made them, and that one
changes nothing, whatever the members are when the loop comes to it. -/
structure Obeys (handlers : HandlerMap β ι σ) (argv : List Bytes) (before : Targets β ι σ) : Prop where
  returns : ∀ e after, parseArgs handlers argv before ≠ (.halt e,after)
  accepts : (∃ after, parseArgs handlers argv before = (.done (),after)) ↔
    Grammar handlers (argv.drop 1)
  assigned : ∀ after, parseArgs handlers argv before = (.done (),after) →
    ∃ pairs, pairsOf (argv.drop 1) = some pairs ∧
      ∀ data, after.value data = finalValue Numeral.wholeInteger handlers pairs before data
  refused : ∀ after, parseArgs handlers argv before = (.absent,after) →
    ∃ parsed rest, argv.drop 1 = parsed ++ rest ∧ Grammar handlers parsed ∧ Offending handlers rest ∧
      parsePairs handlers parsed before = (.done (),after) ∧
      ∀ members, (parsePairs handlers (rest.take 2) members).2 = members

/- The first pair outside the grammar has an int key, and a numeral with more to it or out of range. -/
def Misread (handlers : HandlerMap β ι σ) (args : List Bytes) : Prop :=
  ∃ parsed key text more, args = parsed ++ key :: text :: more ∧ Grammar handlers parsed ∧
    ¬ WellFormed handlers (key,text) ∧
    ∃ target, handlers.lookup key = some (.int target) ∧ Numeral.integerPrefix text ≠ none

section Grammar
omit [DecidableEq β] [DecidableEq ι] [DecidableEq σ]

theorem grammarNone : Grammar handlers [] := ⟨[],rfl,fun _ none => by cases none⟩

theorem grammarNext {key text : Bytes} {rest : List Bytes} :
    Grammar handlers (key :: text :: rest) ↔ WellFormed handlers (key,text) ∧ Grammar handlers rest := by
  unfold Grammar
  simp only [pairsOf,Option.map_eq_some_iff]
  constructor
  · rintro ⟨_,⟨pairs,split,rfl⟩,formed⟩
    exact ⟨formed _ List.mem_cons_self,pairs,split,fun pair inside => formed pair (.tail _ inside)⟩
  · rintro ⟨first,pairs,split,formed⟩
    refine ⟨_,⟨pairs,split,rfl⟩,fun pair inside => ?_⟩
    rcases List.mem_cons.mp inside with rfl | later
    · exact first
    · exact formed pair later

theorem grammarAccepted {args : List Bytes} (grammar : Grammar handlers args) :
    Accepted handlers args := by
  obtain ⟨pairs,split,formed⟩ := grammar
  refine ⟨pairs,split,fun pair inside => ?_⟩
  obtain ⟨data,found,whole⟩ := formed pair inside
  refine ⟨data,found,fun target own => ?_⟩
  obtain ⟨n,read,fits⟩ := whole target own
  exact stoiWhole read fits

theorem firstOffending (args : List Bytes) : Grammar handlers args ∨
    ∃ parsed rest, args = parsed ++ rest ∧ Grammar handlers parsed ∧ Offending handlers rest := by
  induction args using pairsOf.induct with
  | case1 => exact Or.inl grammarNone
  | case2 key => exact Or.inr ⟨[],[key],rfl,grammarNone,Or.inl ⟨key,rfl⟩⟩
  | case3 key text rest ih =>
    by_cases formed : WellFormed handlers (key,text)
    · obtain grammar | ⟨parsed,remaining,rfl,grammar,offending⟩ := ih
      · exact Or.inl (grammarNext.mpr ⟨formed,grammar⟩)
      · exact Or.inr ⟨key :: text :: parsed,remaining,rfl,grammarNext.mpr ⟨formed,grammar⟩,offending⟩
    · exact Or.inr ⟨[],_,rfl,grammarNone,Or.inr ⟨key,text,rest,rfl,formed⟩⟩

theorem grammarAppend {parsed rest : List Bytes} (grammar : Grammar handlers parsed) :
    Grammar handlers (parsed ++ rest) ↔ Grammar handlers rest := by
  induction parsed using pairsOf.induct with
  | case1 => rfl
  | case2 =>
    obtain ⟨pairs,none,_⟩ := grammar
    cases none
  | case3 key text parsed ih =>
    obtain ⟨formed,later⟩ := grammarNext.mp grammar
    rw [List.cons_append,List.cons_append,grammarNext,ih later]
    exact and_iff_right formed

theorem offendingFirst {parsed rest : List Bytes} (offending : Offending handlers (parsed ++ rest))
    (grammar : Grammar handlers parsed) : parsed = [] := by
  cases parsed using pairsOf.induct with
  | case1 => rfl
  | case2 key =>
    obtain ⟨pairs,none,_⟩ := grammar
    cases none
  | case3 key text parsed =>
    obtain ⟨_,no⟩ | ⟨_,_,_,same,ill⟩ := offending
    · cases no
    · cases same
      exact absurd (grammarNext.mp grammar).1 ill

theorem offendingOutside {rest : List Bytes} (offending : Offending handlers rest) :
    ¬ Grammar handlers rest := by
  intro grammar
  obtain rfl := offendingFirst (by rwa [List.append_nil]) grammar
  obtain ⟨_,no⟩ | ⟨_,_,_,no,_⟩ := offending <;> cases no

theorem offendingOnce {parsed other rest more : List Bytes} (same : parsed ++ rest = other ++ more)
    (first : Grammar handlers parsed) (second : Grammar handlers other)
    (here : Offending handlers rest) (there : Offending handlers more) : rest = more := by
  obtain ⟨middle,rfl,rfl⟩ | ⟨middle,rfl,rfl⟩ := List.append_eq_append_iff.mp same
  · obtain rfl := offendingFirst here ((grammarAppend first).mp second)
    rfl
  · obtain rfl := offendingFirst there ((grammarAppend second).mp first)
    rfl

end Grammar

theorem wholeFinal {pairs : List (Bytes × Bytes)} (formed : ∀ pair ∈ pairs, WellFormed handlers pair)
    (before : Targets β ι σ) (data : ArgData β ι σ) :
    finalValue Numeral.integerPrefix handlers pairs before data =
      finalValue Numeral.wholeInteger handlers pairs before data := by
  unfold finalValue
  cases last : lastFor handlers data pairs with
  | none => rfl
  | some pair =>
    have listed := List.mem_reverse.mp (List.mem_of_find?_eq_some last)
    have named := of_decide_eq_true (List.find?_some
      (p := fun pair : Bytes × Bytes => decide (handlers.lookup pair.1 = some data)) last)
    obtain ⟨own,found,whole⟩ := formed pair listed
    cases named.symm.trans found
    exact (wholeMeaning whole).symm

theorem offendingStops {rest : List Bytes} (offending : Offending handlers rest)
    (unread : ¬ Misread handlers rest) (members : Targets β ι σ) :
    parsePairs handlers rest members = (.absent,members) ∧
      parsePairs handlers (rest.take 2) members = (.absent,members) := by
  obtain ⟨key,rfl⟩ | ⟨key,text,more,rfl,ill⟩ := offending
  · exact ⟨rfl,rfl⟩
  · rw [show (key :: text :: more).take 2 = [key,text] from rfl]
    cases found : handlers.lookup key with
    | none =>
      simp only [parsePairs,found]
      exact ⟨rfl,rfl⟩
    | some data =>
      cases data with
      | bool target => exact absurd ⟨_,found,fun _ no => by cases no⟩ ill
      | string target => exact absurd ⟨_,found,fun _ no => by cases no⟩ ill
      | int target =>
        cases read : Numeral.integerPrefix text with
        | none =>
          simp only [parsePairs,found,assign,stoi,read]
          exact ⟨rfl,rfl⟩
        | some n =>
          refine absurd ⟨[],key,text,more,rfl,grammarNone,ill,target,found,?_⟩ unread
          rw [read]
          exact Option.some_ne_none n

theorem misreadDisobeys {argv : List Bytes} {before : Targets β ι σ}
    (misread : Misread handlers (argv.drop 1)) : ¬ Obeys handlers argv before := by
  intro obeys
  obtain ⟨parsed,key,text,more,split,grammar,ill,target,found,numeral⟩ := misread
  have offending : Offending handlers (key :: text :: more) := Or.inr ⟨key,text,more,rfl,ill⟩
  have outside : ¬ Grammar handlers (argv.drop 1) := by
    rw [split,grammarAppend grammar]
    exact offendingOutside offending
  cases read : stoi text with
  | error e =>
    cases e with
    | invalidArgument =>
      obtain ⟨n,some_⟩ := Option.ne_none_iff_exists'.mp numeral
      simp only [stoi,some_] at read
      split at read <;> cases read
    | outOfRange =>
      obtain ⟨e,after,halt⟩ := (@parsePairsHalt β ι σ _ _ _ handlers (argv.drop 1) before).mpr
        ⟨parsed,key,text,more,split,grammarAccepted grammar,target,found,read⟩
      exact obeys.returns e after halt
  | ok n =>
    rcases run : parseArgs handlers argv before with ⟨⟨⟩ | _ | e,after⟩
    · exact outside (obeys.accepts.mp ⟨after,run⟩)
    · obtain ⟨others,rest,same,formed,here,_,still⟩ := obeys.refused after run
      obtain rfl := offendingOnce (split.symm.trans same) grammar formed offending here
      have stores : ∀ members, parsePairs handlers [key,text] members =
          (.done (),members.setInt target n) := fun members => by
        simp only [parsePairs,found,assign,read]
        rfl
      have kept := still ⟨fun _ => false,fun _ => if n = 0 then 1 else 0,fun _ => []⟩
      change (parsePairs handlers [key,text] _).2 = _ at kept
      rw [stores] at kept
      have value := congrArg (fun members => members.int target) kept
      simp only [Targets.setInt,Function.update_self] at value
      split at value
      · rename_i zero
        cases zero.symm.trans value
      · rename_i other
        exact other value
    · exact obeys.returns e after run

theorem parseArgsExactly (argv : List Bytes) (before : Targets β ι σ) :
    Obeys handlers argv before ↔ ¬ Misread handlers (argv.drop 1) := by
  refine ⟨fun obeys misread => misreadDisobeys misread obeys,fun read => ?_⟩
  obtain grammar | ⟨parsed,rest,split,grammar,offending⟩ :=
    @firstOffending _ _ _ handlers (argv.drop 1)
  · obtain ⟨after,run⟩ := parsePairsRuns (grammarAccepted grammar) before
    have ran : parseArgs handlers argv before = (.done (),after) := run
    refine ⟨fun e other halt => ?_,⟨fun _ => grammar,fun _ => ⟨after,ran⟩⟩,fun other same => ?_,
      fun other absent => ?_⟩
    · cases ran.symm.trans halt
    · obtain ⟨pairs,listed,formed⟩ := grammar
      refine ⟨pairs,listed,fun data => ?_⟩
      rw [← wholeFinal formed]
      exact parsePairsValue listed same data
    · cases ran.symm.trans absent
  · have unread : ¬ Misread handlers rest := by
      rintro ⟨others,key,text,more,rfl,formed,ill⟩
      refine read ⟨parsed ++ others,key,text,more,?_,(grammarAppend grammar).mpr formed,ill⟩
      rw [split,List.append_assoc]
    obtain ⟨middle,run⟩ := parsePairsRuns (grammarAccepted grammar) before
    have stops : parseArgs handlers argv before = (.absent,middle) := by
      rw [parseArgs,split,parsePairsAppend run]
      exact (offendingStops offending unread middle).1
    have outside : ¬ Grammar handlers (argv.drop 1) := by
      rw [split,grammarAppend grammar]
      exact offendingOutside offending
    refine ⟨fun e after halt => ?_,⟨?_,fun grammar => absurd grammar outside⟩,fun after done => ?_,
      fun after absent => ?_⟩
    · cases stops.symm.trans halt
    · rintro ⟨after,done⟩
      cases stops.symm.trans done
    · cases stops.symm.trans done
    · cases stops.symm.trans absent
      refine ⟨parsed,rest,split,grammar,offending,run,fun members => ?_⟩
      rw [(offendingStops offending unread members).2]

end Parsing

def integerHandlers : HandlerMap Unit Unit Unit := [(ascii "--integer",.int ())]

def integerZero : Targets Unit Unit Unit := ⟨fun _ => false,fun _ => 0,fun _ => []⟩

def integerArgs (text : String) : List Bytes := [ascii "<path>",ascii "--integer",ascii text]

def strayArgs : List Bytes := ["<path>","--integer","12abc","--unknown","x"].map ascii

theorem integersMisread :
    (∃ after, parseArgs integerHandlers (integerArgs "99999999999") integerZero =
        (.halt .outOfRange,after)) ∧
      ¬ Obeys integerHandlers (integerArgs "99999999999") integerZero ∧
      (∃ after, parseArgs integerHandlers (integerArgs " 12abc") integerZero = (.done (),after) ∧
        after.int () = 12) ∧
      ¬ Obeys integerHandlers (integerArgs " 12abc") integerZero ∧
      (∃ after, parseArgs integerHandlers strayArgs integerZero = (.absent,after) ∧ after.int () = 12) ∧
      ¬ Obeys integerHandlers strayArgs integerZero := by
  have overflow := @Exec.outcomeApply _ _ _ (parseArgs integerHandlers (integerArgs "99999999999"))
    integerZero (.halt .outOfRange) (by decide +kernel)
  have accepted := @Exec.outcomeApply _ _ _ (parseArgs integerHandlers (integerArgs " 12abc"))
    integerZero (.done ()) (by decide +kernel)
  have refused := @Exec.outcomeApply _ _ _ (parseArgs integerHandlers strayArgs) integerZero .absent
    (by decide +kernel)
  have ill : ∀ text, Numeral.wholeInteger text = none →
      ¬ WellFormed integerHandlers (ascii "--integer",text) := by
    rintro text none ⟨data,found,whole⟩
    cases found
    obtain ⟨n,read,_⟩ := whole () rfl
    cases none.symm.trans read
  refine ⟨⟨_,overflow⟩,fun obeys => obeys.returns _ _ overflow,⟨_,accepted,by decide +kernel⟩,
    misreadDisobeys ⟨[],_,_,[],rfl,grammarNone,ill (ascii " 12abc") (by decide +kernel),(),rfl,by decide +kernel⟩,
    ⟨_,refused,by decide +kernel⟩,
    misreadDisobeys ⟨[],_,_,_,rfl,grammarNone,ill (ascii "12abc") (by decide +kernel),(),rfl,by decide +kernel⟩⟩

end IApplication
end ChainDB
