import Calculator.Proofs.Streams
import Calculator.Proofs.Trees
import Mathlib.Data.List.Induction

/-! # Scans of postfix streams

While a stream is read, the values on the stack are those of trees whose listings,
one behind the other, make up what was read. A stream therefore has a value exactly
if it is the listing of one tree that has a value. In every other case the scan says
which failure it meets first: a word that the trees before it give nothing to work on,
a name without a value, a zero divisor, or at the end other than one tree.
-/

namespace Calculator

open Postfix

namespace Postfix

theorem pieces_append_space_cons (first second : Text) :
    pieces (first ++ ' ' :: second) = pieces first ++ pieces second := by
  rw [pieces, List.splitOn_eq_splitOnP]
  exact @filter_splitOnP_append_cons (· == ' ') ' ' rfl first second

/-- A stream comes apart at its ends and next to its spaces. -/
theorem pieces_append {first second : Text}
    (hgap : first.getLast?.all (· = ' ') = true ∨ second.head?.all (· = ' ') = true) :
    pieces (first ++ second) = pieces first ++ pieces second := by
  rcases hgap with hlast | hhead
  · cases first using List.reverseRecOn with
    | nil => rfl
    | append_singleton front c =>
        obtain rfl : c = ' ' := by simpa using hlast
        rw [List.append_assoc, List.singleton_append, pieces_append_space_cons,
          pieces_append_space_cons front []]
        exact congrArg (· ++ pieces second) (List.append_nil _).symm
  · cases second with
    | nil =>
        rw [List.append_nil]
        exact (List.append_nil _).symm
    | cons c rest =>
        obtain rfl : c = ' ' := by simpa using hhead
        rw [pieces_append_space_cons]
        exact congrArg (pieces first ++ ·) (pieces_append_space_cons [] rest).symm

theorem pieces_append_spaces (first second : Text) (count : Nat) :
    pieces (first ++ List.replicate (count + 1) ' ' ++ second) = pieces first ++ pieces second := by
  induction count with
  | zero =>
      rw [List.append_assoc]
      exact pieces_append_space_cons first second
  | succ count ih =>
      rw [List.replicate_succ, List.append_assoc, List.cons_append, pieces_append_space_cons]
      rw [List.append_assoc, List.replicate_succ, List.cons_append, pieces_append_space_cons] at ih
      rw [List.replicate_succ, List.cons_append, ← List.nil_append (' ' :: _),
        pieces_append_space_cons, ← ih]
      rfl

/-- Spaces at the ends of a stream and next to its spaces do not matter. -/
theorem read_append_spaces {first second : Text}
    (hgap : first.getLast?.all (· = ' ') = true ∨ second.head?.all (· = ' ') = true)
    (count : Nat) :
    read (first ++ List.replicate count ' ' ++ second) = read (first ++ second) := by
  cases count with
  | zero => rw [List.replicate_zero, List.append_nil]
  | succ count =>
      rw [read_eq_map_pieces, read_eq_map_pieces, pieces_append_spaces, pieces_append hgap]

theorem mem_of_mem_splitOn {stream piece : Text} (hpiece : piece ∈ stream.splitOn ' ') :
    ∀ c ∈ piece, c ∈ stream := by
  induction stream generalizing piece with
  | nil =>
      rw [List.splitOn_nil, List.mem_singleton] at hpiece
      rw [hpiece]
      exact List.forall_mem_nil _
  | cons d rest ih =>
      obtain ⟨first, others, hrest⟩ := List.exists_cons_of_ne_nil (List.splitOn_ne_nil ' ' rest)
      rw [hrest] at ih
      rw [List.splitOn_cons_eq_if_modifyHead, hrest] at hpiece
      intro c hc
      split at hpiece
      next =>
        rcases List.mem_cons.mp hpiece with rfl | hpiece
        · cases hc
        · exact List.mem_cons_of_mem d (ih hpiece c hc)
      next =>
        rcases List.mem_cons.mp hpiece with rfl | hpiece
        · rcases List.mem_cons.mp hc with rfl | hc
          · exact List.mem_cons_self
          · exact List.mem_cons_of_mem d (ih List.mem_cons_self c hc)
        · exact List.mem_cons_of_mem d (ih (List.mem_cons_of_mem first hpiece) c hc)

theorem hasPlainDigits_of_mem_pieces {stream : Text} (hplain : stream.HasPlainDigits) :
    ∀ piece ∈ pieces stream, piece.HasPlainDigits :=
  fun _ hpiece c hc => hplain c (mem_of_mem_splitOn (List.mem_filter.mp hpiece).1 c hc)

end Postfix

namespace Expr

/-- Whether words are the listing of a tree whose leaves are numbers and names. -/
structure WrittenAs (tree : Expr) (words : List Text) : Prop where
  words_eq : tree.postorder.map Item.text = words
  leaves_not_symbol : ∀ leaf ∈ tree.leaves, ¬ IsSymbol leaf

theorem map_ofText_postorder {tree : Expr} (hleaves : ∀ leaf ∈ tree.leaves, ¬ IsSymbol leaf) :
    (tree.postorder.map Item.text).map Item.ofText = tree.postorder := by
  induction tree with
  | operand leaf =>
      exact congrArg (fun item => [item]) (ofText_of_not_isSymbol (hleaves leaf List.mem_cons_self))
  | negate body ih =>
      rw [postorder, List.map_append, List.map_append, ih hleaves]
      rfl
  | binary operator left right ihleft ihright =>
      obtain ⟨hleft, hright⟩ := List.forall_mem_append.mp hleaves
      simp only [postorder, List.map_append, ihleft hleft, ihright hright]
      exact congrArg (_ ++ [·]) (ofText_symbol (.binary operator))

theorem mem_words_of_mem_leaves {tree : Expr} {leaf : Text} (hleaf : leaf ∈ tree.leaves) :
    leaf ∈ tree.postorder.map Item.text := by
  induction tree with
  | operand text => exact hleaf
  | negate body ih =>
      rw [postorder, List.map_append]
      exact List.mem_append_left _ (ih hleaf)
  | binary operator left right ihleft ihright =>
      simp only [postorder, List.map_append, List.mem_append]
      exact Or.inl ((List.mem_append.mp hleaf).imp ihleft ihright)

namespace WrittenAs

variable {tree : Expr} {words : List Text}

theorem map_ofText (h : tree.WrittenAs words) : words.map Item.ofText = tree.postorder := by
  rw [← h.words_eq, map_ofText_postorder h.leaves_not_symbol]

/-- Words are the listing of one tree only. -/
theorem unique {other : Expr} (h : tree.WrittenAs words) (hother : other.WrittenAs words) :
    tree = other :=
  postorder_injective (h.map_ofText.symm.trans hother.map_ofText)

theorem leaf {word : Text} (hword : ¬ IsSymbol word) : (operand word).WrittenAs [word] :=
  ⟨rfl, List.forall_mem_singleton.mpr hword⟩

theorem negate (h : tree.WrittenAs words) :
    (Expr.negate tree).WrittenAs (words ++ [[Operation.negate.symbol]]) :=
  ⟨by rw [postorder, List.map_append, h.words_eq]; rfl, h.leaves_not_symbol⟩

theorem binary {other : Expr} {more : List Text} (h : tree.WrittenAs words)
    (hother : other.WrittenAs more) (operator : Operator) :
    (Expr.binary operator tree other).WrittenAs (words ++ (more ++ [[operator.symbol]])) := by
  refine ⟨?_, List.forall_mem_append.mpr ⟨h.leaves_not_symbol, hother.leaves_not_symbol⟩⟩
  rw [postorder, List.map_append, List.map_append, h.words_eq, hother.words_eq, List.append_assoc]
  rfl

theorem hasPlainDigits (h : tree.WrittenAs words) (hplain : ∀ word ∈ words, word.HasPlainDigits) :
    ∀ leaf ∈ tree.leaves, leaf.HasPlainDigits :=
  fun leaf hleaf => hplain leaf (h.words_eq ▸ mem_words_of_mem_leaves hleaf)

end WrittenAs

end Expr

namespace Postfix

variable {table : Variables} {words : List Text} {trees : List Expr}

/-- Whether words list trees with values, one tree behind the other. The tree that is
listed last comes first. -/
inductive Stacked (table : Variables) : List Text → List Expr → Prop where
  | nil : Stacked table [] []
  | cons {words listing : List Text} {trees : List Expr} {tree : Expr}
      (hbefore : Stacked table words trees) (hwritten : tree.WrittenAs listing)
      (hbound : tree.Bound table) (hdivides : tree.Divides table) :
      Stacked table (words ++ listing) (tree :: trees)

/-- Why a scan stops at a word, if the words before it list some trees. -/
inductive Stops (table : Variables) (trees : List Expr) : Text → Fault → Prop where
  | unbound {name : Text} (hname : ¬ IsSymbol name) (hdigits : name.isDigits = false)
      (hunbound : table.get? name = none) : Stops table trees name (.unbound name)
  | divisionByZero {left right : Expr} {rest : List Expr} (htrees : trees = right :: left :: rest)
      (hzero : right.value table = 0) : Stops table trees ['/'] .divisionByZero
  | missingOperands (operator : Operator) (hfew : trees.length < 2) :
      Stops table trees [operator.symbol] (.malformed (.missingOperands operator))
  | nothingToNegate (hnone : trees = []) :
      Stops table trees ['~'] (.malformed .nothingToNegate)

/-- The failure that a scan meets first: at the first word that the words before it do
not prepare, or at the end if other than one tree was listed. -/
inductive Fails (table : Variables) (words : List Text) : Fault → Prop where
  | stop {before after : List Text} {word : Text} {trees : List Expr} {fault : Fault}
      (hwords : words = before ++ word :: after) (hread : Stacked table before trees)
      (hstops : Stops table trees word fault) : Fails table words fault
  | left {trees : List Expr} (hread : Stacked table words trees) (hcount : trees.length ≠ 1) :
      Fails table words (.malformed (.valuesLeft trees.length))

namespace Stacked

theorem singleton_iff {tree : Expr} :
    Stacked table words [tree] ↔
      tree.WrittenAs words ∧ tree.Bound table ∧ tree.Divides table := by
  constructor
  · intro h
    cases h with
    | cons hbefore hwritten hbound hdivides =>
        cases hbefore
        exact ⟨hwritten, hbound, hdivides⟩
  · rintro ⟨hwritten, hbound, hdivides⟩
    exact .cons .nil hwritten hbound hdivides

/-- Words that list trees leave the values of the trees on the stack. -/
theorem run (h : Stacked table words trees) (hplain : ∀ word ∈ words, word.HasPlainDigits) :
    Postfix.run table [] (words.map Item.ofText) = .ok (trees.map (Expr.value table)) := by
  induction h with
  | nil => rfl
  | @cons words listing trees tree _ hwritten hbound hdivides ih =>
      obtain ⟨hwords, hlisting⟩ := List.forall_mem_append.mp hplain
      have hvalue := (Expr.eval_eq_ok_iff (hwritten.hasPlainDigits hlisting)).mpr
        ⟨⟨hbound, hdivides⟩, rfl⟩
      rw [List.map_append, run_append, ih hwords, hwritten.map_ofText]
      change Postfix.run table _ _ = _
      rw [Expr.run_postorder, hvalue]
      rfl

/-- A symbol joins the latest trees or stops the scan. -/
theorem operate (h : Stacked table words trees) (operation : Operation) :
    (∃ after, Stacked table (words ++ [[operation.symbol]]) after ∧
        Postfix.operate operation (trees.map (Expr.value table)) =
          .ok (after.map (Expr.value table))) ∨
      ∃ fault, Stops table trees [operation.symbol] fault ∧
        Postfix.operate operation (trees.map (Expr.value table)) = .error fault := by
  cases operation with
  | negate =>
      cases h with
      | nil => exact Or.inr ⟨_, .nothingToNegate rfl, rfl⟩
      | @cons before listing trees body hbefore hwritten hbound hdivides =>
          refine Or.inl ⟨.negate body :: trees, ?_, rfl⟩
          rw [List.append_assoc]
          exact .cons hbefore hwritten.negate hbound hdivides
  | binary operator =>
      cases h with
      | nil => exact Or.inr ⟨_, .missingOperands operator Nat.zero_lt_two, rfl⟩
      | @cons before listing trees right hbefore hright hboundright hdividesright =>
          cases hbefore with
          | nil => exact Or.inr ⟨_, .missingOperands operator Nat.one_lt_two, rfl⟩
          | @cons first more trees left hbefore hleft hboundleft hdividesleft =>
              simp only [List.map_cons, Postfix.operate]
              cases happly : operator.apply (left.value table) (right.value table) with
              | error fault =>
                  obtain ⟨rfl, hzero, rfl⟩ := Operator.apply_eq_error_iff.mp happly
                  exact Or.inr ⟨_, .divisionByZero rfl hzero, rfl⟩
              | ok value =>
                  obtain ⟨hnonzero, rfl⟩ := Operator.apply_eq_ok_iff.mp happly
                  refine Or.inl ⟨.binary operator left right :: trees, ?_, rfl⟩
                  rw [List.append_assoc, List.append_assoc]
                  exact .cons hbefore (hleft.binary hright operator)
                    (Expr.bound_binary_iff.mpr ⟨hboundleft, hboundright⟩)
                    ⟨hdividesleft, hdividesright, hnonzero⟩

/-- One more word lists one more tree, joins the latest trees or stops the scan. -/
theorem step (h : Stacked table words trees) {word : Text} (hplain : word.HasPlainDigits) :
    (∃ after, Stacked table (words ++ [word]) after ∧
        Postfix.step table (trees.map (Expr.value table)) (Item.ofText word) =
          .ok (after.map (Expr.value table))) ∨
      ∃ fault, Stops table trees word fault ∧
        Postfix.step table (trees.map (Expr.value table)) (Item.ofText word) = .error fault := by
  by_cases hsymbol : IsSymbol word
  · obtain ⟨operation, rfl⟩ := hsymbol
    rw [ofText_symbol]
    exact h.operate operation
  · rw [ofText_of_not_isSymbol hsymbol, Postfix.step, Expr.operandValue_eq hplain]
    split
    next hunbound => exact Or.inr ⟨_, .unbound hsymbol hunbound.1 hunbound.2, rfl⟩
    next hknown =>
      refine Or.inl ⟨_, .cons h (.leaf hsymbol) (List.forall_mem_singleton.mpr ?_) trivial, rfl⟩
      intro hdigits
      rw [Variables.contains, Option.isSome_iff_ne_none]
      exact fun hnone => hknown ⟨hdigits, hnone⟩

end Stacked

theorem Stops.step {word : Text} {fault : Fault} (hstops : Stops table trees word fault)
    (hplain : word.HasPlainDigits) :
    Postfix.step table (trees.map (Expr.value table)) (Item.ofText word) = .error fault := by
  cases hstops with
  | unbound hname hdigits hunbound =>
      rw [ofText_of_not_isSymbol hname, Postfix.step, Expr.operandValue_eq hplain,
        if_pos ⟨hdigits, hunbound⟩]
      rfl
  | divisionByZero htrees hzero =>
      rw [htrees]
      change (Operator.divide.apply _ _).map _ = _
      rw [Operator.apply_eq_error_iff.mpr ⟨rfl, hzero, rfl⟩]
      rfl
  | missingOperands operator hfew =>
      rw [show [operator.symbol] = [(Operation.binary operator).symbol] from rfl, ofText_symbol]
      rcases trees with - | ⟨right, - | ⟨left, rest⟩⟩
      · rfl
      · rfl
      · exact absurd hfew (by simp)
  | nothingToNegate hnone => rw [hnone]; rfl

/-- What was read lists trees, or the scan has stopped at a word. -/
theorem run_cases (table : Variables) (hplain : ∀ word ∈ words, word.HasPlainDigits) :
    (∃ trees, Stacked table words trees ∧
        run table [] (words.map Item.ofText) = .ok (trees.map (Expr.value table))) ∨
      ∃ before word after trees fault, words = before ++ word :: after ∧
        Stacked table before trees ∧ Stops table trees word fault ∧
        run table [] (words.map Item.ofText) = .error fault := by
  induction words using List.reverseRecOn with
  | nil => exact Or.inl ⟨[], .nil, rfl⟩
  | append_singleton front last ih =>
      obtain ⟨hfront, hlast⟩ := List.forall_mem_append.mp hplain
      rw [List.map_append, List.map_singleton, run_concat]
      rcases ih hfront with ⟨trees, hread, hrun⟩ | ⟨before, word, after, trees, fault, rfl, hstop⟩
      · rw [hrun]
        rcases hread.step (List.forall_mem_singleton.mp hlast) with
          ⟨next, hnext, hstep⟩ | ⟨fault, hstops, hstep⟩
        · exact Or.inl ⟨next, hnext, hstep⟩
        · exact Or.inr ⟨front, last, [], trees, fault, rfl, hread, hstops, hstep⟩
      · obtain ⟨hread, hstops, hrun⟩ := hstop
        rw [hrun]
        exact Or.inr ⟨before, word, after ++ [last], trees, fault, by simp, hread, hstops, rfl⟩

theorem onlyValue_eq_ok_iff {stack : List Int} {value : Int} :
    onlyValue stack = .ok value ↔ stack = [value] := by
  unfold onlyValue
  split <;> simp_all

theorem onlyValue_eq_error {stack : List Int} (hcount : stack.length ≠ 1) :
    onlyValue stack = .error (.malformed (.valuesLeft stack.length)) := by
  unfold onlyValue
  split
  next => exact absurd rfl hcount
  next => rfl

/-- A stream fails with the failure that the scan of its words meets first. -/
theorem evaluate_eq_error_iff (hplain : ∀ word ∈ words, word.HasPlainDigits) {fault : Fault} :
    evaluate table (words.map Item.ofText) = .error fault ↔ Fails table words fault := by
  rw [evaluate]
  constructor
  · intro hfault
    rcases run_cases table hplain with
      ⟨trees, hread, hrun⟩ | ⟨before, word, after, trees, found, hwords, hread, hstops, hrun⟩
    · rw [hrun] at hfault
      change onlyValue _ = _ at hfault
      by_cases hcount : trees.length = 1
      · obtain ⟨tree, rfl⟩ := List.length_eq_one_iff.mp hcount
        cases hfault
      · rw [onlyValue_eq_error (by rwa [List.length_map]), List.length_map] at hfault
        cases hfault
        exact .left hread hcount
    · rw [hrun] at hfault
      cases hfault
      exact .stop hwords hread hstops
  · intro hfails
    cases hfails with
    | @stop before after word trees fault hwords hread hstops =>
        subst hwords
        obtain ⟨hbefore, hword, _⟩ := List.forall_mem_append.mp hplain |>.imp_right
          List.forall_mem_cons.mp
        rw [List.map_append, List.map_cons, run_append, hread.run hbefore]
        change (run table _ _).bind _ = _
        rw [run_cons, hstops.step hword]
        rfl
    | left hread hcount =>
        rw [hread.run hplain]
        change onlyValue _ = _
        rw [onlyValue_eq_error (by rwa [List.length_map]), List.length_map]

/-- A stream has a value if its words are the listing of one tree that has it. -/
theorem evaluate_eq_ok_iff (hplain : ∀ word ∈ words, word.HasPlainDigits) {value : Int} :
    evaluate table (words.map Item.ofText) = .ok value ↔
      ∃ tree : Expr, tree.WrittenAs words ∧ tree.Bound table ∧ tree.Divides table ∧
        tree.value table = value := by
  rw [evaluate, bind_eq_ok_iff]
  constructor
  · rintro ⟨stack, hstack, honly⟩
    rcases run_cases table hplain with
      ⟨trees, hread, hrun⟩ | ⟨_, _, _, _, _, _, _, _, hrun⟩
    · rw [hrun] at hstack
      cases hstack
      obtain ⟨tree, rfl, hvalue⟩ := List.map_eq_singleton_iff.mp (onlyValue_eq_ok_iff.mp honly)
      obtain ⟨hwritten, hbound, hdivides⟩ := Stacked.singleton_iff.mp hread
      exact ⟨tree, hwritten, hbound, hdivides, hvalue⟩
    · rw [hrun] at hstack
      cases hstack
  · rintro ⟨tree, hwritten, hbound, hdivides, rfl⟩
    have hread := Stacked.singleton_iff.mpr ⟨hwritten, hbound, hdivides⟩
    exact ⟨_, hread.run hplain, rfl⟩

/-- A scan fails because of a name without a value, a zero divisor or a defect. -/
theorem Fails.kind {fault : Fault} (hfails : Fails table words fault) :
    (∃ name, fault = .unbound name) ∨ fault = .divisionByZero ∨
      ∃ defect, fault = .malformed defect := by
  cases hfails with
  | stop _ _ hstops =>
      cases hstops with
      | unbound => exact Or.inl ⟨_, rfl⟩
      | divisionByZero => exact Or.inr (Or.inl rfl)
      | missingOperands => exact Or.inr (Or.inr ⟨_, rfl⟩)
      | nothingToNegate => exact Or.inr (Or.inr ⟨_, rfl⟩)
  | left => exact Or.inr (Or.inr ⟨_, rfl⟩)

/-- A stream whose digits are those of ASCII has a value exactly if its words are the
listing of a tree in which every name is bound and no division has a zero divisor. There
is only one tree with this listing, and its value is that of the stream. In all other
cases the stream fails as the scan of its words does, and so does every stream that is
no listing. Spaces at the ends and further ones between words change nothing. -/
theorem evaluate_read (table : Variables) (stream : Text) (hplain : stream.HasPlainDigits) :
    (∀ value, evaluate table (read stream) = .ok value ↔
      ∃ tree : Expr, tree.WrittenAs (pieces stream) ∧ tree.Bound table ∧ tree.Divides table ∧
        tree.value table = value) ∧
    (∀ tree other : Expr, tree.WrittenAs (pieces stream) → other.WrittenAs (pieces stream) →
      tree = other) ∧
    (∀ fault, evaluate table (read stream) = .error fault ↔ Fails table (pieces stream) fault) ∧
    ((∀ tree : Expr, ¬ tree.WrittenAs (pieces stream)) →
      ∃ fault, evaluate table (read stream) = .error fault ∧
        ((∃ name, fault = .unbound name) ∨ fault = .divisionByZero ∨
          ∃ defect, fault = .malformed defect)) ∧
    ∀ first second, stream = first ++ second →
      (first.getLast?.all (· = ' ') = true ∨ second.head?.all (· = ' ') = true) →
      ∀ count, evaluate table (read (first ++ List.replicate count ' ' ++ second)) =
        evaluate table (read stream) := by
  have hpieces := hasPlainDigits_of_mem_pieces hplain
  rw [read_eq_map_pieces]
  refine ⟨fun _ => evaluate_eq_ok_iff hpieces, fun _ _ h hother => h.unique hother,
    fun _ => evaluate_eq_error_iff hpieces, fun hnone => ?_, ?_⟩
  · cases hvalue : evaluate table ((pieces stream).map Item.ofText) with
    | ok value =>
        obtain ⟨tree, hwritten, _⟩ := (evaluate_eq_ok_iff hpieces).mp hvalue
        exact absurd hwritten (hnone tree)
    | error fault => exact ⟨fault, rfl, ((evaluate_eq_error_iff hpieces).mp hvalue).kind⟩
  · rintro first second rfl hgap count
    rw [read_append_spaces hgap, read_eq_map_pieces]

/-- A stream with spaces at its ends and two spaces between words. -/
theorem evaluate_read_spaced_quotient :
    Text.HasPlainDigits " 9  2 ~ / ".toList ∧
      ∃ tree : Expr, tree.WrittenAs (pieces " 9  2 ~ / ".toList) ∧
        tree.Bound Variables.empty ∧ tree.Divides Variables.empty ∧
        tree.value Variables.empty = -4 := by
  have hplain : Text.HasPlainDigits " 9  2 ~ / ".toList := by decide
  have hread := evaluate_read Variables.empty " 9  2 ~ / ".toList hplain
  exact ⟨hplain, (hread.1 (-4)).mp (by decide +kernel)⟩

end Postfix

end Calculator
