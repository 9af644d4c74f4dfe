import Calculator.Proofs.SignRuns
import Mathlib.Data.List.SplitBy
import Mathlib.Logic.Function.Iterate

/-! # Sign runs as single signs

The passes of rewriting together replace each run of signs by one sign. What a
pass does to a run does not change that sign, so it can be found in one sweep
from the end of the text.
-/

namespace Calculator.Signs

/-- The sign that two signs in a row come to. -/
def combine (first second : Char) : Char :=
  if first = second then '+' else '-'

/-- Put a character in front of a text. Two signs that meet become one. -/
def absorb (c : Char) : Text → Text
  | [] => [c]
  | d :: rest => if isSign c && isSign d then combine c d :: rest else c :: d :: rest

/-- The text with one sign for each run of signs. -/
def settle (text : Text) : Text :=
  text.foldr absorb []

theorem settle_cons (c : Char) (rest : Text) : settle (c :: rest) = absorb c (settle rest) :=
  rfl

theorem settle_append_foldr (before rest : Text) :
    settle (before ++ rest) = before.foldr absorb (settle rest) :=
  List.foldr_append

theorem isSign_combine (first second : Char) : isSign (combine first second) = true := by
  unfold combine
  split <;> rfl

theorem combine_assoc {first second third : Char} (hfirst : isSign first = true)
    (hsecond : isSign second = true) (hthird : isSign third = true) :
    combine first (combine second third) = combine (combine first second) third := by
  rcases eq_or_eq_of_isSign hfirst with rfl | rfl <;>
  rcases eq_or_eq_of_isSign hsecond with rfl | rfl <;>
  rcases eq_or_eq_of_isSign hthird with rfl | rfl <;> rfl

theorem absorb_of_not_isSign {c : Char} (hc : isSign c = false) (text : Text) :
    absorb c text = c :: text := by
  cases text with
  | nil => rfl
  | cons d rest => rw [absorb, hc, Bool.false_and, if_neg Bool.false_ne_true]

/-- A sign stays as it is in front of what begins with no sign. -/
theorem absorb_of_head? (c : Char) {text : Text} (htext : text.head?.any isSign = false) :
    absorb c text = c :: text := by
  cases text with
  | nil => rfl
  | cons d rest =>
      have hd : isSign d = false := htext
      rw [absorb, hd, Bool.and_false, if_neg Bool.false_ne_true]

/-- Of two signs in front of a text one can be made first. -/
theorem absorb_absorb {first second : Char} (hfirst : isSign first = true)
    (hsecond : isSign second = true) (text : Text) :
    absorb first (absorb second text) = absorb (combine first second) text := by
  cases text with
  | nil => simp [absorb, hfirst, hsecond]
  | cons third rest =>
      by_cases hthird : isSign third = true
      · simp [absorb, hfirst, hsecond, hthird, isSign_combine,
          combine_assoc hfirst hsecond hthird]
      · simp [absorb, hfirst, hsecond, hthird]

/-- Two signs next to each other may be made one before the text is settled. -/
theorem settle_cons_cons {first second : Char} (hfirst : isSign first = true)
    (hsecond : isSign second = true) (rest : Text) :
    settle (first :: second :: rest) = settle (combine first second :: rest) :=
  absorb_absorb hfirst hsecond (settle rest)

theorem settle_pairMinuses (text : Text) : settle (pairMinuses text) = settle text := by
  fun_induction pairMinuses text with
  | case1 rest ih =>
      have hpair : settle ('-' :: '-' :: rest) = settle ('+' :: rest) :=
        settle_cons_cons rfl rfl rest
      rw [hpair, settle_cons, ih, settle_cons]
  | case2 c rest _ ih => rw [settle_cons, ih, settle_cons]
  | case3 => rfl

theorem settle_mergePluses (text : Text) : settle (mergePluses text) = settle text := by
  fun_induction mergePluses text with
  | case1 rest ih =>
      have hpair : settle ('+' :: '+' :: rest) = settle ('+' :: rest) :=
        settle_cons_cons rfl rfl rest
      rw [hpair, ih]
  | case2 c rest _ ih => rw [settle_cons, ih, settle_cons]
  | case3 => rfl

theorem settle_absorbPluses (text : Text) : settle (absorbPluses text) = settle text := by
  fun_induction absorbPluses text with
  | case1 rest ih =>
      have hpair : settle ('-' :: '+' :: rest) = settle ('-' :: rest) :=
        settle_cons_cons rfl rfl rest
      rw [hpair, settle_cons, ih, settle_cons]
  | case2 rest ih =>
      have hpair : settle ('+' :: '-' :: rest) = settle ('-' :: rest) :=
        settle_cons_cons rfl rfl rest
      rw [hpair, settle_cons, ih, settle_cons]
  | case3 c rest _ _ ih => rw [settle_cons, ih, settle_cons]
  | case4 => rfl

theorem settle_collapse (text : Text) : settle (collapse text) = settle text := by
  rw [collapse, settle_absorbPluses, settle_mergePluses, settle_pairMinuses]

/-- A text without neighbouring signs is settled already. -/
theorem settle_eq_self {text : Text} (hsettled : Settled text) : settle text = text := by
  induction text with
  | nil => rfl
  | cons c rest ih =>
      obtain ⟨hnext, hrest⟩ := List.isChain_cons.mp hsettled
      rw [settle_cons, ih hrest]
      cases rest with
      | nil => rfl
      | cons d others => rw [absorb, if_neg]; simpa using hnext d rfl

/-- However many passes it takes, the rewriting leaves one sign for each run. -/
theorem normalize_eq_settle (text : Text) : normalize text = settle text := by
  have hsame : settle (normalize text) = settle text := by
    fun_induction normalize text with
    | case1 => rfl
    | case2 text _ ih => rw [ih, settle_collapse]
  rw [← hsame, settle_eq_self (settled_normalize text)]

/-- What stands before the first sign is kept. -/
theorem settle_append {before : Text} (hbefore : ∀ c ∈ before, isSign c = false) (rest : Text) :
    settle (before ++ rest) = before ++ settle rest := by
  induction before with
  | nil => rfl
  | cons c others ih =>
      obtain ⟨hc, hothers⟩ := List.forall_mem_cons.mp hbefore
      rw [List.cons_append, settle_cons, ih hothers, absorb_of_not_isSign hc, List.cons_append]

/-- Whether both of two characters are signs, or neither is. -/
def alike (first second : Char) : Bool :=
  isSign first == isSign second

/-- The longest runs of a text: in each all characters are signs, or none is. -/
def signRuns (text : Text) : List Text :=
  text.splitBy alike

/-- The sign that a run of signs comes to: a minus for an odd number of minuses. -/
def parity (run : Text) : Char :=
  if run.count '-' % 2 = 1 then '-' else '+'

/-- What is left of a run: one sign of signs, and everything of what holds none. -/
def reduceRun (run : Text) : Text :=
  if run.any isSign then [parity run] else run

theorem combine_parity {c : Char} (hc : isSign c = true) (run : Text) :
    combine c (parity run) = parity (c :: run) := by
  rcases eq_or_eq_of_isSign hc with rfl | rfl
  · rw [parity, parity, List.count_cons_of_ne (by decide)]
    split <;> rfl
  · rw [parity, parity, List.count_cons_self]
    split
    next hodd => rw [if_neg (by omega)]; rfl
    next heven => rw [if_pos (by omega)]; rfl

theorem parity_singleton {c : Char} (hc : isSign c = true) : parity [c] = c := by
  rcases eq_or_eq_of_isSign hc with rfl | rfl <;> rfl

/-- A settled text begins with a sign exactly if the text does. -/
theorem head?_settle (text : Text) : (settle text).head?.any isSign = text.head?.any isSign := by
  cases text with
  | nil => rfl
  | cons c rest =>
      rw [settle_cons, absorb.eq_def]
      split
      next => rfl
      next d others hsettled =>
        split
        next hsigns =>
          rw [Bool.and_eq_true] at hsigns
          exact (isSign_combine c d).trans hsigns.1.symm
        next => rfl

/-- A run of signs that no sign continues comes to its sign. -/
theorem settle_run_append {run rest : Text} (hne : run ≠ []) (hrun : ∀ c ∈ run, isSign c = true)
    (hrest : rest.head?.any isSign = false) :
    settle (run ++ rest) = parity run :: settle rest := by
  induction run with
  | nil => exact absurd rfl hne
  | cons c others ih =>
      obtain ⟨hc, hothers⟩ := List.forall_mem_cons.mp hrun
      rw [List.cons_append, settle_cons]
      by_cases hlast : others = []
      · subst hlast
        rw [List.nil_append, parity_singleton hc]
        exact absorb_of_head? c ((head?_settle rest).trans hrest)
      · have hsign : isSign (parity others) = true := by
          unfold parity
          split <;> rfl
        rw [ih hlast hothers, absorb, hc, hsign, Bool.and_self, if_pos rfl, combine_parity hc]

/-- Neighbours that are alike make all characters of a run alike. -/
theorem forall_isSign_eq {c : Char} {rest : Text}
    (halike : (c :: rest).IsChain fun first second => alike first second = true) :
    ∀ d ∈ c :: rest, isSign d = isSign c := by
  induction rest generalizing c with
  | nil => exact List.forall_mem_singleton.mpr rfl
  | cons d others ih =>
      obtain ⟨hd, hothers⟩ := List.isChain_cons_cons.mp halike
      have hd : isSign d = isSign c := (beq_iff_eq.mp hd).symm
      exact List.forall_mem_cons.mpr ⟨rfl, fun e he => (ih hothers e he).trans hd⟩

/-- A run is reduced apart from what follows it, unless signs go on there. -/
theorem settle_alike_append {c : Char} {more rest : Text}
    (halike : ∀ d ∈ c :: more, isSign d = isSign c)
    (hrest : isSign c = true → rest.head?.any isSign = false) :
    settle (c :: more ++ rest) = reduceRun (c :: more) ++ settle rest := by
  by_cases hc : isSign c = true
  · have hsigns : ∀ d ∈ c :: more, isSign d = true := fun d hd => (halike d hd).trans hc
    rw [settle_run_append (List.cons_ne_nil c more) hsigns (hrest hc), reduceRun,
      if_pos (by simp [hc])]
    rfl
  · rw [Bool.not_eq_true] at hc
    have hnone : ∀ d ∈ c :: more, isSign d = false := fun d hd => (halike d hd).trans hc
    rw [settle_append hnone, reduceRun, if_neg (by simpa using hnone)]

/-- Runs that are kept apart are reduced one by one. -/
theorem settle_flatten {runs : List Text} (hne : ∀ run ∈ runs, run ≠ [])
    (halike : ∀ run ∈ runs, run.IsChain fun first second => alike first second = true)
    (hapart : runs.IsChain fun before after =>
      ∃ hbefore hafter, alike (before.getLast hbefore) (after.head hafter) = false) :
    settle runs.flatten = runs.flatMap reduceRun := by
  induction runs with
  | nil => rfl
  | cons run others ih =>
      obtain ⟨hne, hall⟩ := List.forall_mem_cons.mp hne
      obtain ⟨hrun, hothers⟩ := List.forall_mem_cons.mp halike
      obtain ⟨hnext, hrest⟩ := List.isChain_cons.mp hapart
      obtain ⟨c, more, rfl⟩ := List.exists_cons_of_ne_nil hne
      have hsame := forall_isSign_eq hrun
      have hend (hc : isSign c = true) : others.flatten.head?.any isSign = false := by
        cases others with
        | nil => rfl
        | cons next further =>
            obtain ⟨hlast, hhead, hdiffer⟩ := hnext next rfl
            obtain ⟨d, tail, rfl⟩ := List.exists_cons_of_ne_nil hhead
            rw [alike, hsame _ (List.getLast_mem hlast), hc] at hdiffer
            simpa using hdiffer
      rw [List.flatten_cons, settle_alike_append hsame hend, ih hall hothers hrest]
      rfl

theorem settle_eq_flatMap_signRuns (text : Text) :
    settle text = (signRuns text).flatMap reduceRun := by
  have hsettle : settle (signRuns text).flatten = (signRuns text).flatMap reduceRun :=
    settle_flatten (fun _ => List.ne_nil_of_mem_splitBy) (fun _ => List.isChain_of_mem_splitBy)
      (List.isChain_getLast_head_splitBy alike text)
  rwa [signRuns, List.flatten_splitBy] at hsettle

/-- The passes after which the rewriting ends, each of which makes the text shorter. -/
theorem exists_passes (text : Text) :
    ∃ passes ≤ text.length, normalize text = collapse^[passes] text ∧
      ∀ earlier < passes,
        (collapse^[earlier + 1] text).length < (collapse^[earlier] text).length := by
  fun_induction normalize text with
  | case1 text hstable =>
      exact ⟨0, Nat.zero_le _, rfl, fun earlier hlt => absurd hlt earlier.not_lt_zero⟩
  | case2 text hchanged ih =>
      obtain ⟨passes, hbound, hnormal, hshorter⟩ := ih
      have hlt := length_collapse_lt hchanged
      refine ⟨passes + 1, by omega, hnormal, fun earlier hearlier => ?_⟩
      cases earlier with
      | zero => exact hlt
      | succ earlier => exact hshorter earlier (Nat.lt_of_succ_lt_succ hearlier)

/-- Normalizing ends, because a pass that changes a text makes it shorter, and puts one
sign in the place of each run of signs as far as it reaches: a minus if the run has an odd
number of minuses, and otherwise a plus. All other characters are kept. -/
theorem normalize_eq_flatMap_signRuns (text : Text) :
    (collapse text ≠ text → (collapse text).length < text.length) ∧
      (∃ passes ≤ text.length, normalize text = collapse^[passes] text ∧
        collapse (normalize text) = normalize text ∧ ∀ earlier < passes,
          (collapse^[earlier + 1] text).length < (collapse^[earlier] text).length) ∧
      normalize text = (signRuns text).flatMap reduceRun := by
  obtain ⟨passes, hbound, hnormal, hshorter⟩ := exists_passes text
  refine ⟨length_collapse_lt, ?_, ?_⟩
  · exact ⟨passes, hbound, hnormal, collapse_normalize text, hshorter⟩
  · rw [normalize_eq_settle, settle_eq_flatMap_signRuns]

end Calculator.Signs
