import Calculator.Proofs.Characters
import Calculator.Token

/-! # The shape of tokens

Which characters join is a partial equivalence that decides the kind of a
token: a token is a character with all that join it, and a text is cut where
neighbours do not join.
-/

namespace Calculator.Token

/-- What is known of a character that begins a token of a kind. -/
def Kind.Admits : Kind → Char → Prop
  | .number, c => c.isDigit = true
  | .name, c => c.isAlpha = true
  | .sign, c => Signs.isSign c = true
  | .operator, c => c = '*' ∨ c = '/' ∨ c = '^'
  | .opening, c => c = '('
  | .closing, c => c = ')'
  | .equals, c => c = '='
  | .unknown, _ => True
  | .endOfInput, _ => False

theorem admits_ofChar (c : Char) : (Kind.ofChar c).Admits c := by
  unfold Kind.ofChar
  repeat' split
  all_goals simp_all [Kind.Admits, or_assoc]

theorem ofChar_of_isDigit {c : Char} (hc : c.isDigit = true) : Kind.ofChar c = .number := by
  rw [Kind.ofChar, if_pos hc]

theorem ofChar_of_isAlpha {c : Char} (hc : c.isAlpha = true) : Kind.ofChar c = .name := by
  rw [Kind.ofChar, Text.isDigit_eq_false_of_isAlpha hc, if_neg Bool.false_ne_true, if_pos hc]

/-- A joining character goes on with a token: it is of the same kind, and it
joins whatever the character before it joins. -/
theorem ofChar_and_joins_eq_of_joins {c d : Char} (hjoins : joins c d = true) :
    Kind.ofChar d = Kind.ofChar c ∧ joins d = joins c := by
  unfold joins at hjoins
  split at hjoins
  next hkind =>
    have hd := ofChar_of_isDigit hjoins
    refine ⟨hd.trans hkind.symm, ?_⟩
    funext e
    rw [joins, joins, hd, hkind]
  next hkind =>
    have hd := ofChar_of_isAlpha hjoins
    refine ⟨hd.trans hkind.symm, ?_⟩
    funext e
    rw [joins, joins, hd, hkind]
  next =>
    rw [of_decide_eq_true hjoins]
    exact ⟨rfl, rfl⟩
  next => cases hjoins

/-- A token is one character and all characters behind it that join it. -/
def Shaped (token : Token) : Prop :=
  ∃ c more, token = ⟨Kind.ofChar c, c :: more⟩ ∧ ∀ d ∈ more, joins c d = true

theorem Shaped.text_ne_nil {token : Token} (hshaped : token.Shaped) : token.text ≠ [] := by
  obtain ⟨c, more, rfl, _⟩ := hshaped
  exact List.cons_ne_nil c more

theorem Shaped.ofChar_of_mem {token : Token} (hshaped : token.Shaped) :
    ∀ c ∈ token.text, Kind.ofChar c = token.kind := by
  obtain ⟨c, more, rfl, hmore⟩ := hshaped
  refine List.forall_mem_cons.mpr ⟨rfl, fun d hd => ?_⟩
  exact (ofChar_and_joins_eq_of_joins (hmore d hd)).1

theorem Shaped.admits_of_mem {token : Token} (hshaped : token.Shaped) :
    ∀ c ∈ token.text, token.kind.Admits c := by
  intro c hc
  rw [← hshaped.ofChar_of_mem c hc]
  exact admits_ofChar c

theorem shaped_single (c : Char) : Shaped (single c) :=
  ⟨c, [], rfl, List.forall_mem_nil _⟩

theorem shaped_extend {c : Char} {token : Token} (hshaped : Shaped token)
    (hjoins : token.text.head?.any (joins c) = true) : Shaped (extend c token) := by
  obtain ⟨d, more, rfl, hmore⟩ := hshaped
  have hd : joins c d = true := hjoins
  obtain ⟨hkind, heq⟩ := ofChar_and_joins_eq_of_joins hd
  refine ⟨c, d :: more, by rw [extend, hkind], List.forall_mem_cons.mpr ⟨hd, ?_⟩⟩
  rwa [heq] at hmore

theorem shaped_of_mem_attach {c : Char} {tokens : List Token}
    (hshaped : ∀ token ∈ tokens, Shaped token) : ∀ token ∈ attach c tokens, Shaped token := by
  cases tokens with
  | nil => exact List.forall_mem_singleton.mpr (shaped_single c)
  | cons token rest =>
      obtain ⟨htoken, hrest⟩ := List.forall_mem_cons.mp hshaped
      rw [attach]
      split
      next hjoins => exact List.forall_mem_cons.mpr ⟨shaped_extend htoken hjoins, hrest⟩
      next => exact List.forall_mem_cons.mpr ⟨shaped_single c, hshaped⟩

theorem shaped_of_mem_ofText (text : Text) : ∀ token ∈ ofText text, Shaped token := by
  induction text with
  | nil => exact List.forall_mem_nil _
  | cons c rest ih => exact shaped_of_mem_attach ih

theorem head?_ofText {text : Text} {token : Token} {others : List Token}
    (htokens : ofText text = token :: others) : text.head? = token.text.head? := by
  have hshaped := shaped_of_mem_ofText text token (by rw [htokens]; exact List.mem_cons_self)
  obtain ⟨c, more, rfl, _⟩ := hshaped
  rw [← flatMap_text_ofText text, htokens]
  rfl

theorem ofText_cons_of_not_joins {c : Char} {rest : Text}
    (hjoins : rest.head?.any (joins c) = false) : ofText (c :: rest) = single c :: ofText rest := by
  change attach c (ofText rest) = _
  cases htokens : ofText rest with
  | nil => rfl
  | cons token others =>
      rw [head?_ofText htokens] at hjoins
      rw [attach, hjoins, if_neg Bool.false_ne_true]

/-- What a character joins begins with a character that it joins. -/
theorem exists_cons_of_joins {c : Char} {rest : Text}
    (hjoins : ¬ rest.head?.any (joins c) = false) :
    ∃ d others, rest = d :: others ∧ joins c d = true := by
  cases rest with
  | nil => exact absurd rfl hjoins
  | cons d others => exact ⟨d, others, rfl, eq_true_of_ne_false hjoins⟩

/-- A character with all that join it is one token, as far as they reach. -/
theorem ofText_run_append {c : Char} {more rest : Text} (hmore : ∀ d ∈ more, joins c d = true)
    (hrest : rest.head?.any (joins c) = false) :
    ofText (c :: (more ++ rest)) = ⟨Kind.ofChar c, c :: more⟩ :: ofText rest := by
  -- the run is built from its end, and each of its characters joins what `c` joins
  induction more generalizing c with
  | nil => exact ofText_cons_of_not_joins hrest
  | cons d tail ih =>
      obtain ⟨hd, htail⟩ := List.forall_mem_cons.mp hmore
      obtain ⟨hkind, heq⟩ := ofChar_and_joins_eq_of_joins hd
      rw [← heq] at htail hrest
      change attach c (ofText (d :: (tail ++ rest))) = _
      rw [ih htail hrest, hkind]
      exact if_pos hd

/-- The first token has the kind of its first character. -/
theorem exists_ofText_cons (c : Char) (rest : Text) :
    ∃ more others, ofText (c :: rest) = ⟨Kind.ofChar c, c :: more⟩ :: others := by
  have htext := flatMap_text_ofText (c :: rest)
  cases htokens : ofText (c :: rest) with
  | nil => rw [htokens] at htext; cases htext
  | cons token others =>
      obtain ⟨d, more, rfl, _⟩ := shaped_of_mem_ofText (c :: rest) token (by simp [htokens])
      rw [htokens] at htext
      obtain ⟨rfl, _⟩ := List.cons.inj htext
      exact ⟨more, others, rfl⟩

/-- A character that joins no other is a token of its own. -/
theorem ofText_lone_cons {c : Char} (hlone : ∀ d, joins c d = false) (rest : Text) :
    ofText (c :: rest) = single c :: ofText rest := by
  apply ofText_cons_of_not_joins
  cases rest with
  | nil => rfl
  | cons d others => exact hlone d

/-- A text is cut on both sides of a character that joins no other. -/
theorem ofText_append_lone_cons {c : Char} (hlone : ∀ d, joins c d = false)
    (hjoined : ∀ d, joins d c = false) (before after : Text) :
    ofText (before ++ c :: after) = ofText before ++ single c :: ofText after := by
  induction before with
  | nil => exact ofText_lone_cons hlone after
  | cons d rest ih =>
      change attach d (ofText (rest ++ c :: after)) = attach d (ofText rest) ++ _
      rw [ih]
      cases ofText rest with
      | nil =>
          change attach d (single c :: ofText after) = _
          exact if_neg (by simp [single, hjoined d])
      | cons token others =>
          simp only [List.cons_append, attach]
          split <;> rfl

theorem joins_equals (c : Char) : joins c '=' = false := by
  unfold joins
  split
  next => rfl
  next => rfl
  next hkind =>
    rw [decide_eq_false_iff_not]
    rintro rfl
    cases hkind
  next => rfl

/-- An equals sign is a token of its own. -/
theorem ofText_append_equals_cons (before after : Text) :
    ofText (before ++ '=' :: after) = ofText before ++ single '=' :: ofText after :=
  ofText_append_lone_cons (fun _ => rfl) joins_equals before after

end Calculator.Token
