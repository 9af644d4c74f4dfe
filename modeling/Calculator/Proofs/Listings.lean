import Calculator.Proofs.Outlines

/-! # Listings of tokens

The listing of a text is determined by its shape. Its tokens make up the text, each has
the form of its kind, and no two neighbours could be one token. Any cut of the text into
such tokens is the one that the listing shows.
-/

namespace Calculator.Token

/-- What a token of a kind may look like. -/
def Kind.Form : Kind → Text → Prop
  | .number, text => text ≠ [] ∧ ∀ c ∈ text, c.isDigit = true
  | .name, text => text ≠ [] ∧ ∀ c ∈ text, c.isAlpha = true
  | .sign, text => ∃ c ∈ ['+', '-'], ∃ count, text = List.replicate (count + 1) c
  | .operator, text => ∃ c ∈ ['*', '/', '^'], text = [c]
  | .opening, text => text = ['(']
  | .closing, text => text = [')']
  | .equals, text => text = ['=']
  | .unknown, text =>
      ∃ c, c.isDigit = false ∧ c.isAlpha = false ∧ c ∉ "+-*/^()=".toList ∧ text = [c]
  | .endOfInput, text => text = []

/-- Whether two tokens in a row could be one: both are numbers, both are names, or both
are runs of the same sign. -/
def Fuses (first second : Token) : Prop :=
  (first.kind = .number ∧ second.kind = .number) ∨
    (first.kind = .name ∧ second.kind = .name) ∨
      (first.kind = .sign ∧ second.kind = .sign ∧ first.text.head? = second.text.head?)

/-- The mark of the end of the input. -/
def final : Token :=
  ⟨.endOfInput, []⟩

/-- Whether the tokens are placed one after the other from a position on: each stands behind
all characters of those before it. -/
def Positioned (position : Nat) (places : List Placed) : Prop :=
  ∀ before placed after, places = before ++ placed :: after →
    placed.position = position + (before.flatMap (·.token.text)).length

/-- Whether placed tokens list a text: they make it up without a gap, end with their only
mark of the end, have the forms of their kinds, and no two in a row could be one. -/
structure IsListing (text : Text) (places : List Placed) : Prop where
  text_eq : places.flatMap (·.token.text) = text
  positioned : Positioned 0 places
  ends : ∃ front, places = front ++ [⟨final, text.length⟩] ∧
    ∀ placed ∈ front, placed.token.kind ≠ .endOfInput
  form : ∀ placed ∈ places, placed.token.kind.Form placed.token.text
  apart : places.IsChain fun first second => ¬ Fuses first.token second.token

theorem not_mem_of_ofChar_eq_unknown {c : Char} (hc : Kind.ofChar c = .unknown) :
    c.isDigit = false ∧ c.isAlpha = false ∧ c ∉ "+-*/^()=".toList := by
  unfold Kind.ofChar at hc
  repeat' split at hc
  all_goals simp_all [Signs.isSign]

theorem ofChar_ne_endOfInput (c : Char) : Kind.ofChar c ≠ .endOfInput := by
  intro hc
  have hadmits := admits_ofChar c
  rw [hc] at hadmits
  exact hadmits

theorem Shaped.kind_ne {token : Token} (hshaped : token.Shaped) : token.kind ≠ .endOfInput := by
  obtain ⟨c, more, rfl, _⟩ := hshaped
  exact ofChar_ne_endOfInput c

theorem Shaped.form {token : Token} (hshaped : token.Shaped) :
    token.kind.Form token.text := by
  have hadmits := hshaped.admits_of_mem
  cases hkind : token.kind with
  | number | name =>
      rw [hkind] at hadmits
      exact ⟨hshaped.text_ne_nil, hadmits⟩
  | sign =>
      obtain ⟨sign, count, htext⟩ := hshaped.text_of_sign hkind
      exact ⟨sign.symbol, by cases sign <;> decide, count, htext⟩
  | operator =>
      obtain ⟨c, htext, hc⟩ := hshaped.exists_text_eq_singleton hkind (by decide)
      exact ⟨c, by simpa [Kind.Admits] using hc, htext⟩
  | opening | closing | equals =>
      obtain ⟨c, htext, rfl⟩ := hshaped.exists_text_eq_singleton hkind (by decide)
      exact htext
  | unknown =>
      obtain ⟨c, htext, _⟩ := hshaped.exists_text_eq_singleton hkind (by decide)
      have hc := hshaped.ofChar_of_mem c (by rw [htext]; exact List.mem_cons_self)
      obtain ⟨hdigit, halpha, hsymbol⟩ := not_mem_of_ofChar_eq_unknown (hc.trans hkind)
      exact ⟨c, hdigit, halpha, hsymbol, htext⟩
  | endOfInput => exact absurd hkind hshaped.kind_ne

theorem ofChar_eq_unknown {c : Char} (hdigit : c.isDigit = false) (halpha : c.isAlpha = false)
    (hsymbol : c ∉ "+-*/^()=".toList) : Kind.ofChar c = .unknown := by
  have hne : c ≠ '+' ∧ c ≠ '-' ∧ c ≠ '*' ∧ c ≠ '/' ∧ c ≠ '^' ∧ c ≠ '(' ∧ c ≠ ')' ∧ c ≠ '=' := by
    simpa using hsymbol
  simp [Kind.ofChar, Signs.isSign, hdigit, halpha, hne]

theorem shaped_of_form {token : Token} (hform : token.kind.Form token.text)
    (hkind : token.kind ≠ .endOfInput) : token.Shaped := by
  obtain ⟨kind, text⟩ := token
  change kind.Form text at hform
  cases kind with
  | number =>
      obtain ⟨hne, hdigits⟩ := hform
      obtain ⟨c, more, rfl⟩ := List.exists_cons_of_ne_nil hne
      obtain ⟨hc, hmore⟩ := List.forall_mem_cons.mp hdigits
      have hnumber := ofChar_of_isDigit hc
      exact ⟨c, more, by rw [hnumber], by simpa only [joins, hnumber] using hmore⟩
  | name =>
      obtain ⟨hne, hletters⟩ := hform
      obtain ⟨c, more, rfl⟩ := List.exists_cons_of_ne_nil hne
      obtain ⟨hc, hmore⟩ := List.forall_mem_cons.mp hletters
      have hname := ofChar_of_isAlpha hc
      exact ⟨c, more, by rw [hname], by simpa only [joins, hname] using hmore⟩
  | sign =>
      obtain ⟨c, hc, count, rfl⟩ := hform
      have hsign : Kind.ofChar c = .sign := by
        rcases List.mem_pair.mp hc with rfl | rfl <;> rfl
      refine ⟨c, List.replicate count c, by rw [hsign, List.replicate_succ], fun d hd => ?_⟩
      rw [List.eq_of_mem_replicate hd, joins, hsign]
      exact decide_eq_true rfl
  | operator =>
      obtain ⟨c, hc, rfl⟩ := hform
      have hc : c = '*' ∨ c = '/' ∨ c = '^' := by simpa using hc
      have hoperator : Kind.ofChar c = .operator := by
        rcases hc with rfl | rfl | rfl <;> rfl
      exact ⟨c, [], by rw [hoperator], List.forall_mem_nil _⟩
  | opening => exact hform ▸ shaped_single '('
  | closing => exact hform ▸ shaped_single ')'
  | equals => exact hform ▸ shaped_single '='
  | unknown =>
      obtain ⟨c, hdigit, halpha, hsymbol, rfl⟩ := hform
      exact ⟨c, [], by rw [ofChar_eq_unknown hdigit halpha hsymbol], List.forall_mem_nil _⟩
  | endOfInput => exact absurd rfl hkind

/-- Tokens fuse if the first character of the one joins that of the other. -/
theorem fuses_iff_joins {c d : Char} {more others : Text} :
    Fuses ⟨Kind.ofChar c, c :: more⟩ ⟨Kind.ofChar d, d :: others⟩ ↔ joins c d = true := by
  have hadmits := admits_ofChar d
  constructor
  · rintro (⟨hc, hd⟩ | ⟨hc, hd⟩ | ⟨hc, _, hhead⟩)
    · change Kind.ofChar c = .number at hc
      change Kind.ofChar d = .number at hd
      rw [hd] at hadmits
      rwa [joins, hc]
    · change Kind.ofChar c = .name at hc
      change Kind.ofChar d = .name at hd
      rw [hd] at hadmits
      rwa [joins, hc]
    · change Kind.ofChar c = .sign at hc
      rw [joins, hc]
      exact decide_eq_true (Option.some.inj hhead)
  · intro hjoins
    obtain ⟨hkind, _⟩ := ofChar_and_joins_eq_of_joins hjoins
    unfold joins at hjoins
    split at hjoins
    next hc => exact Or.inl ⟨hc, hkind.trans hc⟩
    next hc => exact Or.inr (Or.inl ⟨hc, hkind.trans hc⟩)
    next hc =>
      exact Or.inr (Or.inr ⟨hc, hkind.trans hc, congrArg some (of_decide_eq_true hjoins)⟩)
    next => cases hjoins

/-- Putting a character in front of tokens leaves no two that fuse. -/
theorem isChain_attach {c : Char} {tokens : List Token} (hshaped : ∀ token ∈ tokens, Shaped token)
    (hapart : tokens.IsChain fun first second => ¬ Fuses first second) :
    (attach c tokens).IsChain fun first second => ¬ Fuses first second := by
  cases tokens with
  | nil => exact List.isChain_singleton _
  | cons token rest =>
      obtain ⟨⟨d, more, rfl, _⟩, hrest⟩ := List.forall_mem_cons.mp hshaped
      rw [attach]
      split
      next hjoins =>
        obtain ⟨hkind, hsame⟩ := ofChar_and_joins_eq_of_joins hjoins
        obtain ⟨hnext, hothers⟩ := List.isChain_cons.mp hapart
        refine List.isChain_cons.mpr ⟨fun next hmem => ?_, hothers⟩
        obtain ⟨e, others, rfl, _⟩ := hrest next (List.mem_of_mem_head? hmem)
        have happart := hnext _ hmem
        rw [fuses_iff_joins] at happart
        rw [extend, hkind, fuses_iff_joins, ← hsame]
        exact happart
      next hjoins =>
        refine List.isChain_cons_cons.mpr ⟨?_, hapart⟩
        rw [single, fuses_iff_joins]
        exact hjoins

theorem isChain_ofText (text : Text) :
    (ofText text).IsChain fun first second => ¬ Fuses first second := by
  induction text with
  | nil => exact List.isChain_nil
  | cons c rest ih => exact isChain_attach (shaped_of_mem_ofText rest) ih

/-- A text is cut into tokens in only one way in which no two of them fuse. -/
theorem ofText_flatMap_text {tokens : List Token} (hshaped : ∀ token ∈ tokens, Shaped token)
    (hapart : tokens.IsChain fun first second => ¬ Fuses first second) :
    ofText (tokens.flatMap Token.text) = tokens := by
  induction tokens with
  | nil => rfl
  | cons token rest ih =>
      obtain ⟨⟨c, more, rfl, hmore⟩, hrest⟩ := List.forall_mem_cons.mp hshaped
      obtain ⟨hnext, hothers⟩ := List.isChain_cons.mp hapart
      have hend : (rest.flatMap Token.text).head?.any (joins c) = false := by
        cases rest with
        | nil => rfl
        | cons next others =>
            obtain ⟨d, tail, rfl, _⟩ := hrest next List.mem_cons_self
            have hjoins := hnext _ rfl
            rw [fuses_iff_joins, Bool.not_eq_true] at hjoins
            exact hjoins
      rw [List.flatMap_cons, List.cons_append, ofText_run_append hmore hend, ih hrest hothers]

section Listing

variable {position : Nat} {placed : Placed} {rest : List Placed}

theorem positioned_nil : Positioned position [] := by
  intro before placed after heq
  cases before <;> cases heq

theorem positioned_cons_iff :
    Positioned position (placed :: rest) ↔
      placed.position = position ∧ Positioned (position + placed.token.text.length) rest := by
  constructor
  · intro hpositioned
    refine ⟨hpositioned [] placed rest rfl, ?_⟩
    rintro before other after rfl
    rw [hpositioned (placed :: before) other after rfl, List.flatMap_cons, List.length_append,
      Nat.add_assoc]
  · rintro ⟨hfirst, hrest⟩ before other after heq
    cases before with
    | nil =>
        obtain ⟨rfl, _⟩ := List.cons.inj heq
        exact hfirst
    | cons head others =>
        obtain ⟨rfl, rfl⟩ := List.cons.inj heq
        rw [hrest others other after rfl, List.flatMap_cons, List.length_append, Nat.add_assoc]

theorem positioned_placeFrom (position : Nat) (tokens : List Token) :
    Positioned position (placeFrom position tokens) := by
  induction tokens generalizing position with
  | nil => exact positioned_cons_iff.mpr ⟨rfl, positioned_nil⟩
  | cons token rest ih => exact positioned_cons_iff.mpr ⟨rfl, ih _⟩

/-- Tokens that are placed one after the other end where their characters do. -/
theorem exists_placeFrom_eq (position : Nat) (tokens : List Token) :
    ∃ front, front.map Placed.token = tokens ∧ placeFrom position tokens =
      front ++ [⟨final, position + (tokens.flatMap Token.text).length⟩] := by
  induction tokens generalizing position with
  | nil => exact ⟨[], rfl, rfl⟩
  | cons token rest ih =>
      obtain ⟨front, htokens, hplaced⟩ := ih (position + token.text.length)
      refine ⟨⟨token, position⟩ :: front, by rw [List.map_cons, htokens], ?_⟩
      rw [placeFrom, hplaced, List.flatMap_cons, List.length_append, Nat.add_assoc]
      rfl

/-- The positions of a listing are known from its tokens. -/
theorem eq_placeFrom {last : Nat} {front : List Placed}
    (hpositioned : Positioned position (front ++ [⟨final, last⟩])) :
    front ++ [⟨final, last⟩] = placeFrom position (front.map Placed.token) := by
  induction front generalizing position with
  | nil =>
      obtain ⟨rfl, _⟩ := positioned_cons_iff.mp hpositioned
      rfl
  | cons placed rest ih =>
      obtain ⟨rfl, hrest⟩ := positioned_cons_iff.mp hpositioned
      rw [List.cons_append, ih hrest]
      rfl

theorem not_fuses_final (token : Token) : ¬ Fuses token final := by
  rintro (⟨_, hkind⟩ | ⟨_, hkind⟩ | ⟨_, hkind, _⟩) <;> cases hkind

theorem isListing_listing (text : Text) : IsListing text (listing text) := by
  obtain ⟨front, htokens, hlisting⟩ := exists_placeFrom_eq 0 (ofText text)
  rw [Nat.zero_add, flatMap_text_ofText] at hlisting
  have hshaped : ∀ placed ∈ front, placed.token.Shaped := by
    intro placed hplaced
    apply shaped_of_mem_ofText text
    rw [← htokens]
    exact List.mem_map_of_mem hplaced
  have htext : front.flatMap (·.token.text) = text := by
    rw [← flatMap_text_ofText text, ← htokens, List.flatMap_map]
  have hapart := isChain_ofText text
  rw [← htokens, List.isChain_map] at hapart
  exact {
    positioned := positioned_placeFrom 0 (ofText text)
    text_eq := by
      rw [listing, hlisting, List.flatMap_append, htext]
      exact List.append_nil text
    form := by
      rw [listing, hlisting]
      refine List.forall_mem_append.mpr ⟨fun placed hplaced => (hshaped placed hplaced).form, ?_⟩
      exact List.forall_mem_singleton.mpr rfl
    ends := ⟨front, hlisting, fun placed hplaced => (hshaped placed hplaced).kind_ne⟩
    apart := by
      rw [listing, hlisting, List.isChain_append]
      refine ⟨hapart, List.isChain_singleton _, fun placed _ last hlast => ?_⟩
      obtain rfl := Option.some.inj hlast
      exact not_fuses_final placed.token }

theorem IsListing.eq_listing {text : Text} {places : List Placed} (h : IsListing text places) :
    places = listing text := by
  obtain ⟨front, rfl, hkinds⟩ := h.ends
  have htext : (front.map Placed.token).flatMap Token.text = text := by
    have hall := h.text_eq
    rw [List.flatMap_append] at hall
    rw [List.flatMap_map, ← hall]
    exact (List.append_nil _).symm
  have hshaped : ∀ token ∈ front.map Placed.token, token.Shaped := by
    intro token htoken
    obtain ⟨placed, hplaced, rfl⟩ := List.mem_map.mp htoken
    exact shaped_of_form (h.form placed (List.mem_append_left _ hplaced)) (hkinds placed hplaced)
  have hapart : (front.map Placed.token).IsChain fun first second => ¬ Fuses first second := by
    rw [List.isChain_map]
    exact h.apart.left_of_append
  rw [eq_placeFrom h.positioned, listing, ← ofText_flatMap_text hshaped hapart, htext]

end Listing

/-- The listing of a text is the only list of placed tokens that lists it. -/
theorem isListing_iff_eq_listing (text : Text) (places : List Placed) :
    IsListing text places ↔ places = listing text :=
  ⟨IsListing.eq_listing, fun heq => heq ▸ isListing_listing text⟩

end Calculator.Token
