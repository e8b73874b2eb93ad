import FuzzyCalc.Proofs.Finality

/-!
# One text behind another

Where two texts meet, either nothing happens, and both are scanned as if they were alone, or the
last lexeme of the first goes on into the second, because a numeral gets longer there or one symbol
becomes another. Whether that happens can be told from the last lexeme and the next character.
-/

namespace FuzzyCalc

namespace Symbol

/-- A text is the spelling of a symbol exactly if a symbol is found by it. -/
theorem isSome_ofSpelling?_iff {text : List Char} :
    (ofSpelling? text).isSome = true ↔ ∃ s : Symbol, s.spelling = text := by
  constructor
  · intro h
    obtain ⟨s, hs⟩ := Option.isSome_iff_exists.mp h
    exact ⟨s, spelling_of_ofSpelling? hs⟩
  · rintro ⟨s, rfl⟩
    rw [ofSpelling?_spelling]
    rfl

end Symbol

namespace Lexeme

/-- Two texts fuse where they meet: a numeral goes on, or the last symbol becomes a longer one. -/
def FusesAt (a b : List Char) : Prop :=
  (∃ c ∈ a.getLast?, ∃ d ∈ b.head?, isNumeric c = true ∧ isNumeric d = true) ∨
  ∃ x ∈ (split a).getLast?, ∃ d ∈ b.head?, ∃ s : Symbol, s.spelling = x.text ++ [d]

variable {a b : List Char}

/-- A character fuses with a lexeme if both ends are numeric, or if it makes a symbol of it. -/
theorem fuses_iff {x : Lexeme} (hx : x.Proper) (d : Char) :
    x.fuses d = true ↔
      (∃ c ∈ x.text.getLast?, isNumeric c = true ∧ isNumeric d = true) ∨
        ∃ s : Symbol, s.spelling = x.text ++ [d] := by
  have notIn {s : Symbol} {c : Char} (h : isNumeric c = true ∨ (Letter.ofChar? c).isSome = true) :
      c ∉ s.spelling := by
    intro hc
    obtain ⟨numeric, letter, -⟩ := Symbol.of_mem_spelling hc
    simp [numeric, letter] at h
  cases x with
  | numeral text =>
    obtain ⟨nonempty, run⟩ := hx
    have last := List.getLast?_eq_some_getLast nonempty
    have numeric := run _ (List.getLast_mem nonempty)
    have noSymbol (s : Symbol) : s.spelling ≠ text ++ [d] := by
      intro spelled
      apply notIn (s := s) (.inl numeric)
      rw [spelled]
      exact List.mem_append_left _ (List.getLast_mem nonempty)
    simp [fuses, Lexeme.text, last, numeric, noSymbol]
  | letter l =>
    have isLetter := Letter.ofChar?_toChar l
    have noSymbol (s : Symbol) : s.spelling ≠ [l.toChar] ++ [d] := by
      intro spelled
      apply notIn (s := s) (c := l.toChar) (.inr (by simp [isLetter]))
      simp [spelled]
    simp [fuses, Lexeme.text, isNumeric_of_ofChar? isLetter]
    simpa using noSymbol
  | symbol s =>
    have last := List.getLast?_eq_some_getLast s.spelling_ne_nil
    have symbolic := (Symbol.of_mem_spelling (List.getLast_mem s.spelling_ne_nil)).1
    simp [fuses, Lexeme.text, last, symbolic, Symbol.isSome_ofSpelling?_iff]
  | stray c next => exact hx.elim

/-- Where the lexemes of a text are proper, it fuses with another if its last lexeme does. -/
theorem fusesAt_iff (ha : ∀ x ∈ split a, x.Proper) :
    FusesAt a b ↔ ∃ x ∈ (split a).getLast?, ∃ d ∈ b.head?, x.fuses d = true := by
  cases hlast : (split a).getLast? with
  | none =>
    have empty : a = [] := by
      rw [← flatMap_text_split a, List.getLast?_eq_none_iff.mp hlast, List.flatMap_nil]
    simp [FusesAt, empty]
  | some x =>
    obtain ⟨front, hsplit⟩ := List.getLast?_eq_some_iff.mp hlast
    have proper : x.Proper := ha x (by simp [hsplit])
    have last : a.getLast? = x.text.getLast? := by
      obtain ⟨c, hc⟩ := Option.ne_none_iff_exists'.mp
        (mt List.getLast?_eq_none_iff.mp (text_ne_nil proper))
      rw [← flatMap_text_split a, hsplit, List.flatMap_append, List.flatMap_singleton,
        List.getLast?_append, hc, Option.some_or]
    simp only [FusesAt, hlast, last, Option.mem_def, Option.some.injEq, exists_eq_left',
      fuses_iff proper]
    constructor
    · rintro (⟨c, hc, d, hd, numeric⟩ | ⟨d, hd, spelled⟩)
      · exact ⟨d, hd, .inl ⟨c, hc, numeric⟩⟩
      · exact ⟨d, hd, .inr spelled⟩
    · rintro ⟨d, hd, ⟨c, hc, numeric⟩ | spelled⟩
      · exact .inl ⟨c, hc, d, hd, numeric⟩
      · exact .inr ⟨d, hd, spelled⟩

/-- A character that fuses with a lexeme makes a longer one of it. -/
theorem length_lt_of_fuses {x : Lexeme} {c d : Char} {piece rest : List Char} (hx : x.Proper)
    (ht : x.text = c :: piece) (hf : x.fuses d = true) :
    x.length < (first c (piece ++ d :: rest)).length := by
  cases x with
  | numeral text =>
    obtain rfl : text = c :: piece := ht
    obtain ⟨hc, hpiece⟩ := List.forall_mem_cons.mp hx.2
    have numeric : isNumeric d = true := hf
    rw [first, if_pos hc, List.takeWhile_append_of_pos hpiece, List.takeWhile_cons_of_pos numeric]
    simp [length, text]
  | letter l => cases hf
  | symbol s =>
    have spelled : s.spelling = c :: piece := ht
    obtain ⟨longer, hlonger⟩ := Option.isSome_iff_exists.mp hf
    have spelling := Symbol.spelling_of_ofSpelling? hlonger
    have atMost := longer.length_spelling_le
    rw [spelling, spelled, List.length_append, List.length_cons, List.length_singleton] at atMost
    obtain rfl : piece = [] := List.length_eq_zero_iff.mp (by omega)
    obtain ⟨hc, hl, -⟩ := Symbol.of_mem_spelling (s := s) (c := c) (by simp [spelled])
    rw [spelled, List.singleton_append] at hlonger
    simp [first, hc, hl, longestSymbol?_cons, hlonger, length, text, spelling, spelled]
  | stray c next => exact hx.elim

/-- Where texts fuse, the last lexeme of the first goes on into the second. -/
theorem exists_split_of_fuses {front : List Lexeme} {x : Lexeme} {d : Char} {rest : List Char}
    (hsplit : split a = front ++ [x]) (hx : x.Proper) (hf : x.fuses d = true) :
    ∃ longer behind, split (a ++ d :: rest) = front ++ longer :: behind ∧
      x.length < longer.length := by
  have whole : a = front.flatMap text ++ x.text := by
    rw [← flatMap_text_split a, hsplit, List.flatMap_append, List.flatMap_singleton]
  obtain ⟨c, piece, ht⟩ := List.exists_cons_of_ne_nil (text_ne_nil hx)
  have agree : (a ++ d :: rest).take ((front.flatMap text).length + 1) =
      a.take ((front.flatMap text).length + 1) := by
    apply List.take_append_of_le_length
    simp [whole, ht]
  obtain ⟨behind, hbehind⟩ := prefix_split_of_take (hsplit ▸ List.prefix_append _ _) agree
  have cut : split ((a ++ d :: rest).drop (0 + (front.flatMap text).length)) = behind :=
    split_drop hbehind.symm
  rw [Nat.zero_add, whole, List.append_assoc, List.drop_left, ht, List.cons_append, split] at cut
  subst cut
  exact ⟨_, _, hbehind.symm, length_lt_of_fuses hx ht hf⟩

end Lexeme

open Lexeme

namespace Reading

variable {m : Memory}

/-- A token is read, and the others behind it. -/
theorem ofLexemes_cons_ok {n : Nat} {x : Lexeme} {token : Token} (hx : x.toToken m = .ok token)
    (rest : List Lexeme) :
    ofLexemes m n (x :: rest) =
      ⟨(n, token) :: (ofLexemes m (n + x.length) rest).tokens,
        (ofLexemes m (n + x.length) rest).failure⟩ := by
  simp [ofLexemes, hx]

/-- What is no token ends a reading. -/
theorem ofLexemes_cons_error {n : Nat} {x : Lexeme} {cause : Cause}
    (hx : x.toToken m = .error cause) (rest : List Lexeme) :
    ofLexemes m n (x :: rest) = ⟨[], some (n, cause)⟩ := by
  simp [ofLexemes, hx]

/-- A reading has no failure exactly if the lexemes are tokens. -/
theorem failure_ofLexemes_eq_none_iff {n : Nat} {lexemes : List Lexeme} :
    (ofLexemes m n lexemes).failure = none ↔
      ∀ x ∈ lexemes, ∃ token, x.toToken m = .ok token := by
  induction lexemes generalizing n with
  | nil => simp [ofLexemes]
  | cons x rest ih =>
    cases hx : x.toToken m with
    | error cause => simp [ofLexemes_cons_error hx, hx]
    | ok token => simp [ofLexemes_cons_ok hx, hx, ih]

/-- A text that is scanned to its end has proper lexemes only. -/
theorem proper_of_scanned {text : List Char} (h : (scan m text 0).failure = none) :
    ∀ x ∈ split text, x.Proper := by
  intro x hx
  obtain ⟨token, htoken⟩ := failure_ofLexemes_eq_none_iff.mp h x hx
  rcases proper_or_stray_of_mem hx with proper | ⟨c, next, rfl⟩
  · exact proper
  · rw [toToken] at htoken
    split at htoken <;> cases htoken

/-- Lexemes behind others that are tokens are read from the end of these on. -/
theorem ofLexemes_append {n : Nat} {before : List Lexeme} (behind : List Lexeme)
    (h : (ofLexemes m n before).failure = none) :
    ofLexemes m n (before ++ behind) =
      ⟨(ofLexemes m n before).tokens ++
          (ofLexemes m (n + (before.flatMap Lexeme.text).length) behind).tokens,
        (ofLexemes m (n + (before.flatMap Lexeme.text).length) behind).failure⟩ := by
  induction before generalizing n with
  | nil => rfl
  | cons x rest ih =>
    cases hx : x.toToken m with
    | error cause => simp [ofLexemes_cons_error hx] at h
    | ok token =>
      rw [ofLexemes_cons_ok hx] at h
      rw [List.cons_append, ofLexemes_cons_ok hx, ofLexemes_cons_ok hx, ih h, List.flatMap_cons,
        List.length_append, ← Lexeme.length, Nat.add_assoc]
      rfl

/-- Readings that are the same begin at the same offset, if there is anything to read. -/
theorem offset_eq_of_ofLexemes_eq {i j : Nat} {lexemes others : List Lexeme}
    (h : ofLexemes m i lexemes = ofLexemes m j others) (nonempty : others ≠ []) : i = j := by
  obtain ⟨y, others, rfl⟩ := List.exists_cons_of_ne_nil nonempty
  cases lexemes with
  | nil =>
    rw [ofLexemes] at h
    cases hy : y.toToken m with
    | ok token => simp [ofLexemes_cons_ok hy] at h
    | error cause => simp [ofLexemes_cons_error hy] at h
  | cons x lexemes =>
    cases hx : x.toToken m with
    | ok token =>
      rw [ofLexemes_cons_ok hx] at h
      cases hy : y.toToken m with
      | ok other =>
        simp only [ofLexemes_cons_ok hy, Reading.mk.injEq, List.cons.injEq, Prod.mk.injEq] at h
        exact h.1.1.1
      | error cause => simp [ofLexemes_cons_error hy] at h
    | error cause =>
      rw [ofLexemes_cons_error hx] at h
      cases hy : y.toToken m with
      | ok other => simp [ofLexemes_cons_ok hy] at h
      | error other =>
        simp only [ofLexemes_cons_error hy, Reading.mk.injEq, Option.some.injEq,
          Prod.mk.injEq] at h
        exact h.2.1

/-- Readings that begin with a token at the same offset and are the same go on at the same
offset. -/
theorem length_eq_of_ofLexemes_eq {n : Nat} {x y : Lexeme} {rest others : List Lexeme}
    {token : Token} (hy : y.toToken m = .ok token) (nonempty : others ≠ [])
    (h : ofLexemes m n (x :: rest) = ofLexemes m n (y :: others)) : x.length = y.length := by
  rw [ofLexemes_cons_ok hy] at h
  cases hx : x.toToken m with
  | error cause => simp [ofLexemes_cons_error hx] at h
  | ok other =>
    simp only [ofLexemes_cons_ok hx, Reading.mk.injEq, List.cons.injEq] at h
    have same := offset_eq_of_ofLexemes_eq (congrArg₂ Reading.mk h.1.2 h.2) nonempty
    omega

/-- Where texts fuse, they are not scanned one after the other. -/
theorem ofLexemes_ne_of_fuses {a b : List Char} {x : Lexeme} {d : Char}
    (scanned : (ofLexemes m 0 (split a)).failure = none) (proper : ∀ x ∈ split a, x.Proper)
    (hx : x ∈ (split a).getLast?) (hd : d ∈ b.head?) (hf : x.fuses d = true) :
    ofLexemes m 0 (split (a ++ b)) ≠ ofLexemes m 0 (split a ++ split b) := by
  obtain ⟨front, hsplit⟩ := List.getLast?_eq_some_iff.mp hx
  obtain ⟨rest, rfl⟩ := List.head?_eq_some_iff.mp hd
  have mem : x ∈ split a := by simp [hsplit]
  have isToken := failure_ofLexemes_eq_none_iff.mp scanned
  obtain ⟨token, htoken⟩ := isToken x mem
  have hfront : (ofLexemes m 0 front).failure = none :=
    failure_ofLexemes_eq_none_iff.mpr fun y hy ↦ isToken y (by simp [hsplit, hy])
  have nonempty : split (d :: rest) ≠ [] := by
    rw [split]
    simp
  obtain ⟨longer, behind, hlonger, hlength⟩ :
      ∃ longer behind, split (a ++ d :: rest) = front ++ longer :: behind ∧
        x.length < longer.length := exists_split_of_fuses hsplit (proper x mem) hf
  -- Both readings go on alike behind the tokens before the seam, but the next one ends elsewhere.
  rw [hlonger, hsplit, List.append_assoc, List.singleton_append, ofLexemes_append _ hfront,
    ofLexemes_append _ hfront]
  intro same
  simp only [Reading.mk.injEq, List.append_cancel_left_eq] at same
  have ends := length_eq_of_ofLexemes_eq htoken nonempty (congrArg₂ Reading.mk same.1 same.2)
  omega

/-- A text that is scanned to its end and another are scanned one after the other, exactly if they
do not fuse where they meet. -/
theorem scan_append_eq_iff (m : Memory) (a b : List Char) (h : (scan m a 0).failure = none) :
    scan m (a ++ b) 0 =
        ⟨(scan m a 0).tokens ++ (scan m b 0).tokens.map fun entry ↦ (entry.1 + a.length, entry.2),
          (scan m b 0).failure.map fun entry ↦ (entry.1 + a.length, entry.2)⟩ ↔
      ¬ FusesAt a b := by
  have proper := proper_of_scanned h
  have scanned : (ofLexemes m 0 (split a)).failure = none := h
  have moved := ofLexemes_add (m := m) 0 a.length (split b)
  rw [Nat.zero_add] at moved
  have apart : ofLexemes m 0 (split a ++ split b) =
      ⟨(ofLexemes m 0 (split a)).tokens ++ ((ofLexemes m 0 (split b)).shift a.length).tokens,
        ((ofLexemes m 0 (split b)).shift a.length).failure⟩ := by
    rw [ofLexemes_append _ scanned, flatMap_text_split, Nat.zero_add, moved]
  change ofLexemes m 0 (split (a ++ b)) = ⟨(ofLexemes m 0 (split a)).tokens ++
    ((ofLexemes m 0 (split b)).shift a.length).tokens,
    ((ofLexemes m 0 (split b)).shift a.length).failure⟩ ↔ _
  rw [fusesAt_iff proper, ← apart]
  constructor
  · rintro whole ⟨x, hx, d, hd, hf⟩
    exact ofLexemes_ne_of_fuses scanned proper hx hd hf whole
  · intro seam
    rw [split_append proper]
    intro x hx d hd
    by_contra fused
    exact seam ⟨x, hx, d, hd, by simpa using fused⟩

/-- Behind `1<` the text `(x` is scanned as if it stood alone, up to its variable without a value.
The text `=2` is not, as its equals sign becomes part of `<=`. -/
theorem scan_append_comparison :
    let a := ['1', '<']
    (scan .empty a 0).failure = none ∧ ¬ FusesAt a ['(', 'x'] ∧ FusesAt a ['=', '2'] ∧
      scan .empty (a ++ ['(', 'x']) 0 =
        ⟨[(0, .number .one), (1, .symbol (.binaryOp .less)), (2, .opening)],
          some (3, .unassigned ⟨49⟩)⟩ ∧
      scan .empty (a ++ ['=', '2']) 0 ≠
        ⟨[(0, .number .one), (1, .symbol (.binaryOp .less)), (2, .symbol (.binaryOp .equal)),
          (3, .number (.finite ⟨false, 2, 0⟩))], none⟩ := by
  intro a
  have scanned : (scan .empty a 0).failure = none := by decide +kernel
  have opened : scan .empty (a ++ ['(', 'x']) 0 =
      ⟨[(0, .number .one), (1, .symbol (.binaryOp .less)), (2, .opening)],
        some (3, .unassigned ⟨49⟩)⟩ := by decide +kernel
  have alone := scan_append_eq_iff .empty a ['(', 'x'] scanned
  have longer := scan_append_eq_iff .empty a ['=', '2'] scanned
  have fused : FusesAt a ['=', '2'] := by
    right
    exact ⟨.symbol (.binaryOp .less), by decide +kernel, '=', rfl, .binaryOp .lessOrEqual, rfl⟩
  refine ⟨scanned, alone.mp ?_, fused, opened, ?_⟩
  · rw [opened]
    decide +kernel
  · intro apart
    apply longer.mp _ fused
    rw [apart]
    decide +kernel

end Reading

end FuzzyCalc
