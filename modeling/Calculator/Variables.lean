import Calculator.Numeral

/-!
# Variables

A table binds names to integers. Its entries are kept in the order of their
names, code point by code point, with each name at most once; two tables that
give the same answer for every name are therefore equal.
-/

namespace Calculator

namespace Variables

/-- Put a value at the place of its name, over the one that was there. -/
def place (name : Text) (value : Int) : List (Text × Int) → List (Text × Int)
  | [] => [(name, value)]
  | entry :: rest =>
      if name < entry.1 then (name, value) :: entry :: rest
      else if name = entry.1 then (name, value) :: rest
      else entry :: place name value rest

theorem fst_of_mem_place {name : Text} {value : Int} {entries : List (Text × Int)}
    {entry : Text × Int} (hmem : entry ∈ place name value entries) :
    entry.1 = name ∨ entry ∈ entries := by
  induction entries with
  | nil =>
      rw [place, List.mem_singleton] at hmem
      exact Or.inl (hmem ▸ rfl)
  | cons head rest ih =>
      rw [place] at hmem
      split at hmem
      · rcases List.mem_cons.mp hmem with rfl | hmem
        · exact Or.inl rfl
        · exact Or.inr hmem
      · split at hmem
        · rcases List.mem_cons.mp hmem with rfl | hmem
          · exact Or.inl rfl
          · exact Or.inr (List.mem_cons_of_mem head hmem)
        · rcases List.mem_cons.mp hmem with rfl | hmem
          · exact Or.inr List.mem_cons_self
          · exact (ih hmem).imp_right (List.mem_cons_of_mem head)

theorem place_pairwise {name : Text} {value : Int} {entries : List (Text × Int)}
    (hsorted : entries.Pairwise fun first second => first.1 < second.1) :
    (place name value entries).Pairwise fun first second => first.1 < second.1 := by
  induction entries with
  | nil => exact List.pairwise_singleton _ _
  | cons head rest ih =>
      obtain ⟨hhead, hrest⟩ := List.pairwise_cons.mp hsorted
      rw [place]
      split
      next hlt =>
        refine List.pairwise_cons.mpr ⟨fun entry hentry => ?_, hsorted⟩
        rcases List.mem_cons.mp hentry with rfl | hentry
        · exact hlt
        · exact List.lt_trans hlt (hhead entry hentry)
      next hnot =>
        split
        next heq => exact List.pairwise_cons.mpr ⟨fun entry hentry => heq ▸ hhead entry hentry, hrest⟩
        next hne =>
          refine List.pairwise_cons.mpr ⟨fun entry hentry => ?_, ih hrest⟩
          rcases fst_of_mem_place hentry with heq | hentry
          · rw [heq]
            exact (List.le_iff_lt_or_eq.mp (List.not_lt.mp hnot)).resolve_right
              fun h => hne h.symm
          · exact hhead entry hentry

theorem lookup_cons_eq (name : Text) (head : Text × Int) (rest : List (Text × Int)) :
    (head :: rest).lookup name = if name = head.1 then some head.2 else rest.lookup name := by
  rw [List.lookup_cons]
  by_cases heq : name = head.1
  · simp [heq]
  · simp [heq, beq_false_of_ne heq]

theorem lookup_place (name other : Text) (value : Int) (entries : List (Text × Int)) :
    (place name value entries).lookup other =
      if other = name then some value else entries.lookup other := by
  induction entries with
  | nil => rw [place, lookup_cons_eq]
  | cons head rest ih =>
      rw [place]
      split
      next => rw [lookup_cons_eq]
      next =>
        split
        next heq =>
          subst heq
          rw [lookup_cons_eq, lookup_cons_eq]
          by_cases hother : other = head.1 <;> simp [hother]
        next hne =>
          rw [lookup_cons_eq, lookup_cons_eq, ih]
          by_cases hother : other = name
          · subst hother
            simp [hne]
          · simp [hother]

/-- A name before all names of the entries is not among them. -/
theorem lookup_eq_none {name : Text} {entries : List (Text × Int)}
    (hbefore : ∀ entry ∈ entries, name < entry.1) : entries.lookup name = none := by
  induction entries with
  | nil => rfl
  | cons head rest ih =>
      obtain ⟨hhead, hrest⟩ := List.forall_mem_cons.mp hbefore
      have hne : name ≠ head.1 := fun heq => List.lt_irrefl head.1 (heq ▸ hhead)
      rw [lookup_cons_eq, if_neg hne, ih hrest]

/-- A name with a value does not stand before the first entry. -/
theorem not_lt_of_lookup {name : Text} {head : Text × Int} {rest : List (Text × Int)}
    {value : Int} (hsorted : (head :: rest).Pairwise fun first second => first.1 < second.1)
    (hfound : (head :: rest).lookup name = some value) : ¬ name < head.1 := by
  intro hlt
  have hnone : (head :: rest).lookup name = none := by
    refine lookup_eq_none (List.forall_mem_cons.mpr ⟨hlt, fun entry hentry => ?_⟩)
    exact List.lt_trans hlt ((List.pairwise_cons.mp hsorted).1 entry hentry)
  rw [hnone] at hfound
  cases hfound

theorem eq_of_lookup {first second : List (Text × Int)}
    (hfirst : first.Pairwise fun former latter => former.1 < latter.1)
    (hsecond : second.Pairwise fun former latter => former.1 < latter.1)
    (hsame : ∀ name, first.lookup name = second.lookup name) : first = second := by
  induction first generalizing second with
  | nil =>
      cases second with
      | nil => rfl
      | cons head rest =>
          have hnone := hsame head.1
          rw [lookup_cons_eq, if_pos rfl] at hnone
          cases hnone
  | cons head rest ih =>
      have hhead : second.lookup head.1 = some head.2 := by
        rw [← hsame, lookup_cons_eq, if_pos rfl]
      cases second with
      | nil => cases hhead
      | cons head' rest' =>
          have hhead' : (head :: rest).lookup head'.1 = some head'.2 := by
            rw [hsame, lookup_cons_eq, if_pos rfl]
          have hname : head.1 = head'.1 :=
            List.le_antisymm (List.not_lt.mp (not_lt_of_lookup hfirst hhead'))
              (List.not_lt.mp (not_lt_of_lookup hsecond hhead))
          have hvalue : head.2 = head'.2 := by
            rw [lookup_cons_eq, if_pos hname] at hhead
            exact (Option.some.inj hhead).symm
          obtain ⟨hbefore, hrest⟩ := List.pairwise_cons.mp hfirst
          obtain ⟨hbefore', hrest'⟩ := List.pairwise_cons.mp hsecond
          have heq : head = head' := Prod.ext hname hvalue
          subst heq
          refine congrArg (head :: ·) (ih hrest hrest' fun name => ?_)
          by_cases hlookup : name = head.1
          · rw [hlookup, lookup_eq_none hbefore, lookup_eq_none hbefore']
          · have h := hsame name
            rwa [lookup_cons_eq, lookup_cons_eq, if_neg hlookup, if_neg hlookup] at h

end Variables

/-- The names bound in a session, with their values. -/
structure Variables where
  /-- The bindings, by ascending name. -/
  toList : List (Text × Int)
  sorted : toList.Pairwise fun first second => first.1 < second.1
  deriving DecidableEq

namespace Variables

def empty : Variables :=
  ⟨[], List.Pairwise.nil⟩

/-- The table with a name bound to a value, whether or not it was bound before. -/
def bind (table : Variables) (name : Text) (value : Int) : Variables :=
  ⟨place name value table.toList, place_pairwise table.sorted⟩

/-- The table of a list of bindings; of two bindings of one name the later holds. -/
def ofList (bindings : List (Text × Int)) : Variables :=
  bindings.foldl (fun table binding => table.bind binding.1 binding.2) empty

def get? (table : Variables) (name : Text) : Option Int :=
  table.toList.lookup name

@[simp]
theorem get?_empty (name : Text) : empty.get? name = none :=
  rfl

/-- Binding a name gives it its value and leaves every other name alone. -/
theorem get?_bind (table : Variables) (name other : Text) (value : Int) :
    (table.bind name value).get? other = if other = name then some value else table.get? other :=
  lookup_place name other value table.toList

/-- Tables that give every name the same value are equal. -/
@[ext]
theorem ext_get? {first second : Variables} (hsame : ∀ name, first.get? name = second.get? name) :
    first = second := by
  cases first with
  | mk entries hentries =>
      cases second with
      | mk entries' hentries' =>
          have heq : entries = entries' := eq_of_lookup hentries hentries' hsame
          subst heq
          rfl

def contains (table : Variables) (name : Text) : Bool :=
  (table.get? name).isSome

def size (table : Variables) : Nat :=
  table.toList.length

def describe (table : Variables) : Text :=
  "VariableTable(".toList ++
    Text.join ", ".toList (table.toList.map fun entry => entry.1 ++ '=' :: Numeral.write entry.2) ++
    [')']

end Variables

end Calculator
