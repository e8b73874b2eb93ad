import FuzzyCalc.Lexeme

/-!
# Seams between lexemes

What the lexeme at the front of a text is depends on what follows it only through the next
character, and only if that character would become part of it. So a text can be cut at a seam where
nothing fuses, and each part scanned alone.
-/

namespace FuzzyCalc

namespace Symbol

/-- A spelling has at most two characters. -/
theorem length_spelling_le (s : Symbol) : s.spelling.length ≤ 2 := by
  have every : ∀ s ∈ Symbol.all, s.spelling.length ≤ 2 := by decide
  exact every s (mem_all s)

/-- No spelling is empty. -/
theorem spelling_ne_nil (s : Symbol) : s.spelling ≠ [] := by
  have every : ∀ s ∈ Symbol.all, s.spelling ≠ [] := by decide
  exact every s (mem_all s)

/-- A character of a spelling begins nothing but a symbol. -/
theorem of_mem_spelling {s : Symbol} {c : Char} (h : c ∈ s.spelling) :
    Lexeme.isNumeric c = false ∧ Letter.ofChar? c = none ∧ c ≠ ':' := by
  -- Checked character by character of each list, not over all characters.
  have every : (Symbol.all.all fun s ↦ s.spelling.all fun c ↦
      !Lexeme.isNumeric c && (Letter.ofChar? c).isNone && c != ':') = true := by decide
  have checked := List.all_eq_true.mp (List.all_eq_true.mp every s (mem_all s)) c h
  simpa [and_assoc] using checked

private theorem parenthesis_not_in_pair : ∀ s ∈ Symbol.all, s.spelling.length = 2 →
    '(' ∉ s.spelling ∧ ')' ∉ s.spelling := by
  decide

/-- A parenthesis is part of no longer spelling. -/
theorem ofSpelling?_with_parenthesis {text : List Char} {c : Char} (hc : c = '(' ∨ c = ')')
    (hmem : c ∈ text) (hlength : 1 < text.length) : ofSpelling? text = none := by
  cases hs : ofSpelling? text with
  | none => rfl
  | some s =>
    obtain rfl := spelling_of_ofSpelling? hs
    have two : s.spelling.length = 2 := by
      have atMost := length_spelling_le s
      omega
    obtain ⟨notOpening, notClosing⟩ := parenthesis_not_in_pair s (mem_all s) two
    rcases hc with rfl | rfl
    · exact absurd hmem notOpening
    · exact absurd hmem notClosing

end Symbol

namespace Lexeme

/-- Whether a character would become part of a lexeme that it follows. -/
def fuses (d : Char) : Lexeme → Bool
  | numeral _ => isNumeric d
  | letter _ => false
  | symbol s => (Symbol.ofSpelling? (s.spelling ++ [d])).isSome
  | stray c _ => (Symbol.ofSpelling? [c, d]).isSome

/-- A lexeme that belongs in a text: a numeral is a run of digits and points, and no character is
stray. -/
def Proper : Lexeme → Prop
  | numeral text => text ≠ [] ∧ ∀ c ∈ text, isNumeric c = true
  | letter _ | symbol _ => True
  | stray _ _ => False

/-- A proper lexeme has a character. -/
theorem text_ne_nil {x : Lexeme} (hx : x.Proper) : x.text ≠ [] := by
  cases x with
  | numeral text => exact hx.1
  | letter l => simp [text]
  | symbol s => exact s.spelling_ne_nil
  | stray c next => exact hx.elim

/-- No letter can stand in a numeral. -/
theorem isNumeric_of_ofChar? {c : Char} {l : Letter} (h : Letter.ofChar? c = some l) :
    isNumeric c = false := by
  have all : ∀ l ∈ Letter.all, isNumeric l.toChar = false := by decide
  rw [← Letter.toChar_of_ofChar? h]
  exact all l l.mem_all

/-- The four ways in which a text can begin. -/
theorem first_cases (c : Char) (rest : List Char) :
    (isNumeric c = true ∧ first c rest = numeral (c :: rest.takeWhile isNumeric)) ∨
    (∃ l, Letter.ofChar? c = some l ∧ first c rest = letter l) ∨
    (isNumeric c = false ∧ Letter.ofChar? c = none ∧
      ∃ s, longestSymbol? c rest = some s ∧ first c rest = symbol s) ∨
    (isNumeric c = false ∧ Letter.ofChar? c = none ∧ longestSymbol? c rest = none ∧
      first c rest = stray c rest.head?) := by
  unfold first
  by_cases hc : isNumeric c = true
  · exact .inl ⟨hc, if_pos hc⟩
  · rw [if_neg hc]
    have hc : isNumeric c = false := Bool.eq_false_iff.mpr hc
    cases hl : Letter.ofChar? c with
    | some l => exact .inr (.inl ⟨l, rfl, rfl⟩)
    | none =>
      cases hs : longestSymbol? c rest with
      | some s => exact .inr (.inr (.inl ⟨hc, rfl, s, rfl, rfl⟩))
      | none => exact .inr (.inr (.inr ⟨hc, rfl, rfl, rfl⟩))

/-- A letter begins a lexeme of its own. -/
theorem first_letter {c : Char} {l : Letter} (h : Letter.ofChar? c = some l) (rest : List Char) :
    first c rest = letter l := by
  have hc : ¬ isNumeric c = true := by simp [isNumeric_of_ofChar? h]
  rw [first, if_neg hc, h]

/-- Whatever begins a text is proper, or its first character is stray. -/
theorem proper_or_stray (c : Char) (rest : List Char) :
    (first c rest).Proper ∨ first c rest = stray c rest.head? := by
  rcases first_cases c rest with ⟨hc, h⟩ | ⟨l, -, h⟩ | ⟨-, -, s, -, h⟩ | ⟨-, -, -, h⟩
  · refine .inl ?_
    rw [h]
    refine ⟨List.cons_ne_nil _ _, ?_⟩
    intro d hd
    rcases List.mem_cons.mp hd with rfl | hd
    · exact hc
    · exact List.all_eq_true.mp List.all_takeWhile d hd
  · exact .inl (by rw [h]; trivial)
  · exact .inl (by rw [h]; trivial)
  · exact .inr h

/-- Two characters together come before one alone. -/
theorem longestSymbol?_cons (c d : Char) (rest : List Char) :
    longestSymbol? c (d :: rest) =
      (Symbol.ofSpelling? [c, d]).or (Symbol.ofSpelling? [c]) := rfl

/-- A symbol is the longest one where its spelling is not part of a longer one. -/
theorem longestSymbol?_of_spelling {s : Symbol} {c : Char} {piece after : List Char}
    (spelled : s.spelling = c :: piece)
    (hf : ∀ d ∈ after.head?, Symbol.ofSpelling? (c :: piece ++ [d]) = none) :
    longestSymbol? c (piece ++ after) = some s := by
  have found := Symbol.ofSpelling?_spelling s
  have atMost := Symbol.length_spelling_le s
  rw [spelled] at found atMost
  match piece with
  | [] =>
    cases after with
    | nil => exact found
    | cons d rest =>
      have alone : Symbol.ofSpelling? [c, d] = none := hf d rfl
      rw [List.nil_append, longestSymbol?_cons, alone, Option.none_or, found]
  | [d] => rw [List.singleton_append, longestSymbol?_cons, found, Option.some_or]
  | d :: e :: more => simp at atMost

/-- The spelling of the longest symbol is not part of a longer one. -/
theorem ofSpelling?_of_longestSymbol? {s : Symbol} {c d : Char} {piece tail : List Char}
    (hs : longestSymbol? c (piece ++ d :: tail) = some s) (spelled : s.spelling = c :: piece) :
    Symbol.ofSpelling? (c :: piece ++ [d]) = none := by
  cases extended : Symbol.ofSpelling? (c :: piece ++ [d]) with
  | none => rfl
  | some longer =>
    have spelledLonger := Symbol.spelling_of_ofSpelling? extended
    have atMost := Symbol.length_spelling_le longer
    rw [spelledLonger, List.length_append, List.length_cons, List.length_singleton] at atMost
    obtain rfl : piece = [] := List.length_eq_zero_iff.mp (by omega)
    change Symbol.ofSpelling? [c, d] = some longer at extended
    rw [List.nil_append, longestSymbol?_cons, extended, Option.some_or] at hs
    obtain rfl := Option.some.inj hs
    rw [spelled] at spelledLonger
    simp at spelledLonger

/-- A proper lexeme has no colon in it. -/
theorem colon_not_mem_text {x : Lexeme} (h : x.Proper) : ':' ∉ x.text := by
  intro hcolon
  cases x with
  | numeral text => exact absurd (h.2 ':' hcolon) (by decide)
  | letter l =>
    have isLetter := Letter.ofChar?_toChar l
    rw [← List.mem_singleton.mp hcolon] at isLetter
    exact absurd isLetter (by simp [show Letter.ofChar? ':' = none by decide])
  | symbol s => exact (Symbol.of_mem_spelling hcolon).2.2 rfl
  | stray c next => exact h

/-- A colon is stray. -/
theorem first_colon (rest : List Char) : first ':' rest = stray ':' rest.head? := by
  refine (proper_or_stray ':' rest).resolve_left fun proper ↦ ?_
  obtain ⟨piece, hpiece, -⟩ := text_first ':' rest
  exact colon_not_mem_text proper (by rw [hpiece]; exact List.mem_cons_self)

/-- Before a colon the lexeme is one character. -/
theorem length_first_colon (c : Char) (rest : List Char) : (first c (':' :: rest)).length = 1 := by
  rcases proper_or_stray c (':' :: rest) with proper | stray
  · obtain ⟨piece, hpiece, hrest⟩ := text_first c (':' :: rest)
    cases piece with
    | nil => rw [length, hpiece]; rfl
    | cons d later =>
      obtain ⟨rfl, -⟩ := List.cons.inj hrest
      exact absurd (by rw [hpiece]; simp) (colon_not_mem_text proper)
  · rw [stray]
    rfl

/-- A proper lexeme begins every text that goes on with its text, unless the next character fuses
with it. -/
theorem first_of_text {x : Lexeme} {c : Char} {piece after : List Char} (hx : x.Proper)
    (ht : x.text = c :: piece) (hf : ∀ d ∈ after.head?, x.fuses d = false) :
    first c (piece ++ after) = x := by
  cases x with
  | numeral text =>
    obtain rfl : text = c :: piece := ht
    have digits := hx.2
    have stop : after.takeWhile isNumeric = [] := by
      cases after with
      | nil => rfl
      | cons d rest => exact List.takeWhile_cons_of_neg (by simpa [fuses] using hf d rfl)
    rw [first, if_pos (digits c List.mem_cons_self),
      List.takeWhile_append_of_pos fun d hd ↦ digits d (List.mem_cons_of_mem c hd), stop,
      List.append_nil]
  | letter l =>
    obtain ⟨rfl, rfl⟩ := List.cons.inj ht
    exact first_letter (Letter.ofChar?_toChar l) _
  | symbol s =>
    have spelled : s.spelling = c :: piece := ht
    have mem : c ∈ s.spelling := by rw [spelled]; exact List.mem_cons_self
    obtain ⟨hc, hl, -⟩ := Symbol.of_mem_spelling mem
    have longest : longestSymbol? c (piece ++ after) = some s := by
      refine longestSymbol?_of_spelling spelled ?_
      intro d hd
      have apart := hf d hd
      rwa [fuses, spelled, Option.isSome_eq_false_iff, Option.isNone_iff_eq_none] at apart
    have hc : ¬ isNumeric c = true := by simp [hc]
    rw [first, if_neg hc, hl, longest]
  | stray d next => exact hx.elim

/-- What follows the lexeme at the front of a text does not fuse with it. -/
theorem not_fuses_first {x : Lexeme} {c : Char} {piece after : List Char}
    (hx : first c (piece ++ after) = x) (ht : x.text = c :: piece) :
    ∀ d ∈ after.head?, x.fuses d = false := by
  intro d hd
  obtain ⟨tail, rfl⟩ := List.head?_eq_some_iff.mp hd
  rcases first_cases c (piece ++ d :: tail) with
    ⟨hc, h⟩ | ⟨l, -, h⟩ | ⟨-, -, s, hs, h⟩ | ⟨-, -, hs, h⟩
  · cases hx.symm.trans h
    have digits : (piece ++ d :: tail).takeWhile isNumeric = piece := (List.cons.inj ht).2
    have numeric : ∀ e ∈ piece, isNumeric e = true := by
      intro e he
      rw [← digits] at he
      exact List.all_eq_true.mp List.all_takeWhile e he
    cases hd : isNumeric d with
    | false => exact hd
    | true =>
      rw [List.takeWhile_append_of_pos numeric, List.takeWhile_cons_of_pos hd] at digits
      have longer := congrArg List.length digits
      simp at longer
  · cases hx.symm.trans h
    rfl
  · cases hx.symm.trans h
    have spelled : s.spelling = c :: piece := ht
    rw [fuses, spelled, ofSpelling?_of_longestSymbol? hs spelled]
    rfl
  · cases hx.symm.trans h
    obtain rfl : piece = [] := ((List.cons.inj ht).2).symm
    rw [List.nil_append, longestSymbol?_cons, Option.or_eq_none_iff] at hs
    rw [fuses, hs.1]
    rfl

/-- A stray character stays stray, unless the next character fuses with it. -/
theorem first_stray {c : Char} {rest after : List Char} {next : Option Char}
    (hx : first c rest = stray c next) (hf : ∀ d ∈ after.head?, (stray c next).fuses d = false) :
    first c after = stray c after.head? := by
  rcases first_cases c rest with ⟨-, h⟩ | ⟨l, -, h⟩ | ⟨-, -, s, -, h⟩ | ⟨hc, hl, hs, -⟩
  · cases h.symm.trans hx
  · cases h.symm.trans hx
  · cases h.symm.trans hx
  · have alone : Symbol.ofSpelling? [c] = none := (Option.or_eq_none_iff.mp hs).2
    have longest : longestSymbol? c after = none := by
      cases after with
      | nil => exact alone
      | cons d tail =>
        have pair := hf d rfl
        rw [fuses, Option.isSome_eq_false_iff, Option.isNone_iff_eq_none] at pair
        rw [longestSymbol?_cons, pair, alone, Option.none_or]
    have hc : ¬ isNumeric c = true := by simp [hc]
    rw [first, if_neg hc, hl, longest]

/-- A lexeme of a text that is not the letter itself does not hold it. -/
theorem not_mem_text_first {letter : Letter} {c : Char} {rest : List Char}
    (hx : first c rest ≠ .letter letter) : letter.toChar ∉ (first c rest).text := by
  have isLetter := Letter.ofChar?_toChar letter
  intro hmem
  rcases first_cases c rest with ⟨hc, h⟩ | ⟨l, -, h⟩ | ⟨-, -, s, -, h⟩ | ⟨-, hl, -, h⟩
  · have digits : letter.toChar ∈ c :: rest.takeWhile isNumeric := by rwa [h] at hmem
    have numeric : isNumeric letter.toChar = true := by
      rcases List.mem_cons.mp digits with heq | hrest
      · rwa [heq]
      · exact List.all_eq_true.mp List.all_takeWhile _ hrest
    rw [isNumeric_of_ofChar? isLetter] at numeric
    cases numeric
  · rw [h] at hmem hx
    rw [List.mem_singleton.mp hmem, Letter.ofChar?_toChar] at isLetter
    exact hx (congrArg Lexeme.letter (Option.some.inj isLetter))
  · rw [h] at hmem
    rw [(Symbol.of_mem_spelling hmem).2.1] at isLetter
    cases isLetter
  · rw [h] at hmem
    rw [List.mem_singleton.mp hmem, hl] at isLetter
    cases isLetter

/-- A parenthesis fuses with nothing before it. -/
theorem fuses_parenthesis {c : Char} (hc : c = '(' ∨ c = ')') (x : Lexeme) :
    x.fuses c = false := by
  cases x with
  | numeral text => rcases hc with rfl | rfl <;> rfl
  | letter l => rfl
  | symbol s =>
    have longer : 1 < (s.spelling ++ [c]).length := by
      have nonempty := List.length_pos_iff.mpr s.spelling_ne_nil
      rw [List.length_append, List.length_singleton]
      omega
    rw [fuses, Symbol.ofSpelling?_with_parenthesis hc (by simp) longer]
    rfl
  | stray d next =>
    rw [fuses, Symbol.ofSpelling?_with_parenthesis hc (by simp) (by simp)]
    rfl

/-- A parenthesis fuses with nothing behind it. -/
theorem parenthesis_fuses (parenthesis : Separator) (d : Char) :
    (symbol (.separator parenthesis)).fuses d = false := by
  have noPair {c : Char} (hc : c = '(' ∨ c = ')') : Symbol.ofSpelling? [c, d] = none :=
    Symbol.ofSpelling?_with_parenthesis hc List.mem_cons_self (by simp)
  cases parenthesis with
  | opening =>
    change (Symbol.ofSpelling? ['(', d]).isSome = false
    rw [noPair (.inl rfl)]
    rfl
  | closing =>
    change (Symbol.ofSpelling? [')', d]).isSome = false
    rw [noPair (.inr rfl)]
    rfl

/-! ### Cutting at a seam -/

/-- The empty text has no lexemes. -/
@[simp] theorem split_nil : split [] = [] := by rw [split]

/-- A text is cut behind its first lexeme. -/
theorem split_cons_append {x : Lexeme} {c : Char} {piece after : List Char}
    (hx : first c (piece ++ after) = x) (ht : x.text = c :: piece) :
    split (c :: (piece ++ after)) = x :: split after := by
  have hlength : x.length - 1 = piece.length := by
    rw [length, ht, List.length_cons, Nat.add_sub_cancel]
  rw [split, hx, hlength, List.drop_left]

/-- A text with a colon behind its first character is cut before and behind the colon. -/
theorem split_colon (c : Char) (rest : List Char) :
    split (c :: ':' :: rest) = first c (':' :: rest) :: stray ':' rest.head? :: split rest := by
  rw [split, length_first_colon, Nat.sub_self, List.drop_zero, split, first_colon]
  rfl

/-- Induction along the lexemes of a text: what holds of the empty text, and of a text whenever it
holds behind its first lexeme, holds of every text. -/
@[elab_as_elim]
theorem split_induction {motive : List Char → Prop} (nil : motive [])
    (cons : ∀ c piece after, (first c (piece ++ after)).text = c :: piece →
      split (c :: (piece ++ after)) = first c (piece ++ after) :: split after →
      motive after → motive (c :: (piece ++ after)))
    (text : List Char) : motive text := by
  induction text using split.induct with
  | case1 => exact nil
  | case2 c rest x ih =>
    obtain ⟨piece, hpiece, hrest⟩ := text_first c rest
    have hlength : (first c rest).length - 1 = piece.length := by
      rw [length, hpiece, List.length_cons, Nat.add_sub_cancel]
    rw [hlength] at ih
    have ht : (first c (piece ++ rest.drop piece.length)).text = c :: piece := by rwa [hrest]
    have whole := cons c piece _ ht (split_cons_append rfl ht) ih
    rwa [hrest] at whole

/-- Every lexeme of a text has a character. -/
theorem length_pos_of_mem {text : List Char} {x : Lexeme} (h : x ∈ split text) : 0 < x.length := by
  induction text using split_induction with
  | nil => simp at h
  | cons c piece after ht hcut ih =>
    rw [hcut, List.mem_cons] at h
    rcases h with rfl | h
    · simp [length, ht]
    · exact ih h

/-- A parenthesis is a lexeme of its own, whatever follows. -/
theorem split_parenthesis (parenthesis : Separator) (after : List Char) :
    split (parenthesis.spelling ++ after) = symbol (.separator parenthesis) :: split after := by
  cases parenthesis with
  | opening =>
    have first : first '(' ([] ++ after) = symbol (.separator .opening) :=
      first_of_text trivial rfl fun d _ ↦ parenthesis_fuses .opening d
    exact split_cons_append first rfl
  | closing =>
    have first : first ')' ([] ++ after) = symbol (.separator .closing) :=
      first_of_text trivial rfl fun d _ ↦ parenthesis_fuses .closing d
    exact split_cons_append first rfl

/-- Two texts are scanned one after the other if all lexemes of the first are proper and nothing
fuses at the seam. -/
theorem split_append {a b : List Char} (ha : ∀ x ∈ split a, x.Proper)
    (hs : ∀ x ∈ (split a).getLast?, ∀ d ∈ b.head?, x.fuses d = false) :
    split (a ++ b) = split a ++ split b := by
  induction a using split_induction with
  | nil => rw [split_nil]; rfl
  | cons c piece after ht hcut ih =>
    rw [hcut] at ha hs
    have seam : ∀ d ∈ (after ++ b).head?, (first c (piece ++ after)).fuses d = false := by
      cases after with
      | nil =>
        rw [split_nil] at hs
        exact hs _ rfl
      | cons d tail =>
        intro e he
        exact not_fuses_first rfl ht e he
    have hfirst := first_of_text (ha _ List.mem_cons_self) ht seam
    have hrest : split (after ++ b) = split after ++ split b := by
      refine ih (fun x hx ↦ ha x (List.mem_cons_of_mem _ hx)) ?_
      intro x hx
      cases hlast : split after with
      | nil => rw [hlast] at hx; cases hx
      | cons y ys =>
        rw [hlast] at hx hs
        exact hs x (by rwa [List.getLast?_cons_cons])
    rw [hcut, List.cons_append, List.append_assoc, split_cons_append hfirst ht, hrest]
    rfl

/-- The characters of a lexeme of a text are characters of the text. -/
theorem mem_of_mem_split {text : List Char} {x : Lexeme} {c : Char} (hx : x ∈ split text)
    (hc : c ∈ x.text) : c ∈ text := by
  rw [← flatMap_text_split text]
  exact List.mem_flatMap.mpr ⟨x, hx, hc⟩

/-- A lexeme of a text is proper, or a stray character. -/
theorem proper_or_stray_of_mem {text : List Char} {x : Lexeme} (h : x ∈ split text) :
    x.Proper ∨ ∃ c next, x = stray c next := by
  induction text using split_induction with
  | nil =>
    rw [split_nil] at h
    cases h
  | cons c piece after ht hcut ih =>
    rw [hcut] at h
    rcases List.mem_cons.mp h with rfl | later
    · rcases proper_or_stray c (piece ++ after) with proper | isStray
      · exact .inl proper
      · exact .inr ⟨c, _, isStray⟩
    · exact ih later

/-- The lexemes of a text behind some of them are those of the text behind. -/
theorem split_flatMap_of_eq_append {text : List Char} {before behind : List Lexeme}
    (h : split text = before ++ behind) : split (behind.flatMap Lexeme.text) = behind := by
  induction text using split_induction generalizing before with
  | nil =>
    rw [split_nil] at h
    obtain ⟨-, rfl⟩ := List.append_eq_nil_iff.mp h.symm
    exact split_nil
  | cons c piece after ht hcut ih =>
    cases before with
    | nil =>
      rw [List.nil_append] at h
      rw [← h, flatMap_text_split]
    | cons x before =>
      rw [hcut] at h
      exact ih (List.cons.inj h).2

/-- Where its lexemes are cut in two, so is the text. -/
theorem flatMap_text_append {text : List Char} {before behind : List Lexeme}
    (h : split text = before ++ behind) :
    before.flatMap Lexeme.text ++ behind.flatMap Lexeme.text = text := by
  rw [← List.flatMap_append, ← h, flatMap_text_split]

/-- Some of its lexemes, one after the other, are the text up to where they end. -/
theorem drop_take_split {text : List Char} {start : Nat} {before behind : List Lexeme}
    (h : split (text.drop start) = before ++ behind) :
    (text.take (start + (before.flatMap Lexeme.text).length)).drop start =
      before.flatMap Lexeme.text := by
  rw [List.drop_take, Nat.add_sub_cancel_left, ← flatMap_text_append h, List.take_left]

/-- Behind some of its lexemes a text has the others. -/
theorem split_drop {text : List Char} {start : Nat} {before behind : List Lexeme}
    (h : split (text.drop start) = before ++ behind) :
    split (text.drop (start + (before.flatMap Lexeme.text).length)) = behind := by
  rw [← List.drop_drop, ← flatMap_text_append h, List.drop_left, split_flatMap_of_eq_append h]

/-- Proper lexemes at the front of a text are those of the text up to there. -/
theorem split_flatMap_of_proper {text : List Char} {before behind : List Lexeme}
    (h : split text = before ++ behind) (hp : ∀ x ∈ before, x.Proper) :
    split (before.flatMap Lexeme.text) = before := by
  induction text using split_induction generalizing before with
  | nil =>
    rw [split_nil] at h
    obtain ⟨rfl, -⟩ := List.append_eq_nil_iff.mp h.symm
    exact split_nil
  | cons c piece after ht hcut ih =>
    cases before with
    | nil => exact split_nil
    | cons x before =>
      rw [hcut, List.cons_append, List.cons.injEq] at h
      obtain ⟨hx, hafter⟩ := h
      obtain ⟨proper, others⟩ := List.forall_mem_cons.mp hp
      have whole := flatMap_text_append hafter
      -- The lexeme ends there as it does in the whole text.
      have seam : ∀ d ∈ (before.flatMap Lexeme.text).head?, x.fuses d = false := by
        intro d hd
        refine not_fuses_first hx (hx ▸ ht) d ?_
        rw [← whole, List.head?_append, hd]
        rfl
      rw [hx] at ht
      rw [List.flatMap_cons, ht, List.cons_append,
        split_cons_append (first_of_text proper ht seam) ht, ih hafter others]

end Lexeme

end FuzzyCalc
