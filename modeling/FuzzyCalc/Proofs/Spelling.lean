import Mathlib.Data.List.Forall2
import FuzzyCalc.Proofs.Diagnosis
import FuzzyCalc.Proofs.Numerals
import FuzzyCalc.Proofs.Reachable
import FuzzyCalc.Proofs.Sign
import FuzzyCalc.Proofs.ViablePrefix

/-!
# Spelled tokens read back

Tokens are spelled without anything between them, and two spellings side by side could fuse into
one. In a sentence they never do: operands begin exactly where they are awaited, and nothing that
begins one fuses with what awaits it. So the scanner finds the very tokens that were spelled, and
what a message quotes tells the stack.
-/

namespace FuzzyCalc

open Stack

/-! ### Where operands begin -/

/-- Whether an operand begins with a token of a kind. -/
def Token.Kind.beginsOperand : Token.Kind → Bool
  | .number | .opening | .prefixOp => true
  | .closing | .postfixOp | .binaryOp => false

/-- Whether an operand is awaited behind a token of a kind. -/
def Token.Kind.awaitsOperand : Token.Kind → Bool
  | .opening | .prefixOp | .binaryOp => true
  | .number | .closing | .postfixOp => false

/-- Operands begin exactly where they are awaited; whether one is awaited first is given. -/
def Alternates : (awaiting : Bool) → List Token → Prop
  | _, [] => True
  | awaiting, token :: rest =>
    token.kind.beginsOperand = awaiting ∧ Alternates token.kind.awaitsOperand rest

/-- Whether an operand is awaited behind tokens. -/
def awaitsAfter (awaiting : Bool) (tokens : List Token) : Bool :=
  tokens.foldl (fun _ token ↦ token.kind.awaitsOperand) awaiting

/-- Tokens alternate if the first of them do, and the others where these end. -/
theorem alternates_append {awaiting : Bool} {first second : List Token} :
    Alternates awaiting (first ++ second) ↔
      Alternates awaiting first ∧ Alternates (awaitsAfter awaiting first) second := by
  induction first generalizing awaiting with
  | nil => simp [Alternates, awaitsAfter]
  | cons token rest ih =>
    rw [List.cons_append, Alternates, ih, Alternates, and_assoc]
    rfl

/-- What is awaited behind two lists is what is awaited behind the second. -/
theorem awaitsAfter_append (awaiting : Bool) (first second : List Token) :
    awaitsAfter awaiting (first ++ second) = awaitsAfter (awaitsAfter awaiting first) second :=
  List.foldl_append

mutual

/-- An operand stands where one is awaited, and behind it none is. -/
theorem Operand.alternates (operand : Operand) :
    Alternates true operand.tokens ∧ awaitsAfter true operand.tokens = false := by
  cases operand with
  | number x => exact ⟨⟨rfl, trivial⟩, rfl⟩
  | group level =>
    obtain ⟨inner, done⟩ := level.alternates
    change (_ ∧ Alternates true (level.tokens ++ [.closing])) ∧
      awaitsAfter true (level.tokens ++ [.closing]) = false
    rw [alternates_append, awaitsAfter_append, done]
    exact ⟨⟨rfl, inner, rfl, trivial⟩, rfl⟩
  | prefixed op operand => exact ⟨⟨rfl, operand.alternates.1⟩, operand.alternates.2⟩

/-- A level stands where an operand is awaited, and behind it none is. -/
theorem Level.alternates (level : Level) :
    Alternates true level.tokens ∧ awaitsAfter true level.tokens = false := by
  cases level with
  | single operand => exact operand.alternates
  | binary left op right =>
    obtain ⟨before, done⟩ := left.alternates
    rw [Level.tokens, alternates_append, awaitsAfter_append, done]
    exact ⟨⟨before, rfl, right.alternates.1⟩, right.alternates.2⟩
  | postfixed level op =>
    obtain ⟨before, done⟩ := level.alternates
    rw [Level.tokens, alternates_append, awaitsAfter_append, done]
    exact ⟨⟨before, rfl, trivial⟩, rfl⟩

end

/-- What a sentence begins with alternates. -/
theorem alternates_of_sentence {tokens : List Token} {sentence : Level}
    (h : tokens <+: sentence.tokens) : Alternates true tokens := by
  obtain ⟨rest, hrest⟩ := h
  have whole := sentence.alternates.1
  rw [← hrest, alternates_append] at whole
  exact whole.1

/-! ### One token -/

namespace Token

/-- A symbol, or a finite number without a minus sign. -/
def Plain : Token → Prop
  | number x => x.Nonneg false
  | symbol _ => True

/-- The lexeme that spells a token. -/
def lexeme : Token → Lexeme
  | number x => .numeral x.numeral
  | symbol s => .symbol s

/-- The token that a spelling is read back as. -/
def reread : Token → Token
  | number (.finite x) => .number (.finite x.expanded)
  | token => token

/-- The same symbol, or numbers of the same value. -/
inductive SameValue : Token → Token → Prop
  /-- The same symbol. -/
  | symbol (s : Symbol) : SameValue (.symbol s) (.symbol s)
  /-- Two numbers of one value. -/
  | number {x y : FiniteDecimal} (h : x.toRat = y.toRat) :
    SameValue (.number (.finite x)) (.number (.finite y))

/-- A token comes back as the same symbol or a number of the same value, and a number without a
positive exponent as the very same number. -/
def ComesBackAs (token read : Token) : Prop :=
  token.SameValue read ∧
    ∀ x : FiniteDecimal, token = .number (.finite x) → x.exponent ≤ 0 → read = token

variable {token other : Token} {m : Memory}

/-- The first token is spelled first. -/
theorem spellAll_cons (token : Token) (rest : List Token) :
    spellAll (token :: rest) = token.spelling ++ spellAll rest := List.flatMap_cons

/-- A lexeme has the text of the token that it spells. -/
theorem text_lexeme (token : Token) : token.lexeme.text = token.spelling := by
  cases token with
  | number x => rfl
  | symbol s => rfl

/-- A plain number is finite and has no minus sign. -/
theorem Plain.exists_finite {x : Decimal} (h : (number x).Plain) :
    ∃ f : FiniteDecimal, x = .finite f ∧ f.negative = false := by
  obtain ⟨f, rfl, hf⟩ := Decimal.Nonneg.exists_finite h
  refine ⟨f, rfl, ?_⟩
  cases hn : f.negative with
  | false => rfl
  | true => exact absurd (hf hn).1 (by decide)

/-- A number is spelled with digits and points only, and at least one of them. -/
theorem numeral_of_plain {x : Decimal} (h : (number x).Plain) :
    x.numeral ≠ [] ∧ ∀ c ∈ x.numeral, Lexeme.isNumeric c = true := by
  obtain ⟨f, rfl, positive⟩ := h.exists_finite
  obtain ⟨chars, hne, -⟩ := f.unsignedNumeral_spec
  rw [Decimal.numeral, FiniteDecimal.numeral_of_negative positive]
  refine ⟨hne, fun c hc ↦ ?_⟩
  rcases chars c hc with digit | rfl
  · simp [Lexeme.isNumeric, digit]
  · rfl

/-- The lexeme of a token belongs in a text. -/
theorem proper_lexeme (h : token.Plain) : token.lexeme.Proper := by
  cases token with
  | number x => exact numeral_of_plain h
  | symbol s => trivial

/-- No token is spelled with nothing. -/
theorem spelling_ne_nil (h : token.Plain) : token.spelling ≠ [] := by
  cases token with
  | number x => exact (numeral_of_plain h).1
  | symbol s => exact s.spelling_ne_nil

/-- A spelled token is read back. -/
theorem toToken_lexeme (h : token.Plain) : token.lexeme.toToken m = .ok token.reread := by
  cases token with
  | symbol s => rfl
  | number x =>
    obtain ⟨f, rfl, positive⟩ := h.exists_finite
    have parsed := FiniteDecimal.ofPlainNumeral?_numeral positive
    simp only [lexeme, Decimal.numeral, Lexeme.toToken, parsed, reread]

/-- What a token is read back as is what it should be. -/
theorem comesBackAs_reread (h : token.Plain) : token.ComesBackAs token.reread := by
  cases token with
  | symbol s => exact ⟨.symbol s, nofun⟩
  | number x =>
    obtain ⟨f, rfl, -⟩ := h.exists_finite
    refine ⟨.number f.toRat_expanded.symm, ?_⟩
    rintro _ ⟨⟩ hexponent
    rw [reread, FiniteDecimal.expanded_of_nonpos hexponent]

/-- Tokens that are read back as the same token have the same value. -/
theorem sameValue_of_reread (h : token.Plain) (ho : other.Plain)
    (heq : token.reread = other.reread) : token.SameValue other := by
  obtain ⟨back, -⟩ := comesBackAs_reread h
  obtain ⟨otherBack, -⟩ := comesBackAs_reread ho
  rw [← heq] at otherBack
  generalize token.reread = read at back otherBack
  cases back with
  | symbol s =>
    cases otherBack
    exact .symbol s
  | number hvalue =>
    cases otherBack with
    | number hother => exact .number (hvalue.trans hother.symm)

/-- No two symbols that may stand side by side fuse. -/
theorem symbols_not_fuse {s t : Symbol} {d : Char}
    (halternate : (Token.symbol t).kind.beginsOperand = (Token.symbol s).kind.awaitsOperand)
    (hd : d ∈ t.spelling.head?) : (Symbol.ofSpelling? (s.spelling ++ [d])).isSome = false := by
  -- Checked for the first character of each spelling, not over all characters.
  have every : (Symbol.all.all fun s ↦ Symbol.all.all fun t ↦
      (Token.symbol t).kind.beginsOperand != (Token.symbol s).kind.awaitsOperand ||
        t.spelling.head?.all fun d ↦ !(Symbol.ofSpelling? (s.spelling ++ [d])).isSome) = true := by
    decide +kernel
  have pair := List.all_eq_true.mp (List.all_eq_true.mp every s s.mem_all) t t.mem_all
  have first := Option.mem_def.mp hd
  simpa [halternate, first] using pair

/-- Nothing that begins an operand fuses with what awaits it, and nothing that goes on fuses with
what is complete. -/
theorem not_fuses (h : token.Plain) (ho : other.Plain)
    (halternate : other.kind.beginsOperand = token.kind.awaitsOperand) :
    ∀ d ∈ other.spelling.head?, token.lexeme.fuses d = false := by
  intro d hd
  have mem : d ∈ other.spelling := List.mem_of_mem_head? hd
  cases token with
  | number x =>
    cases other with
    | number y => cases halternate
    | symbol t => exact (Symbol.of_mem_spelling mem).1
  | symbol s =>
    cases other with
    | symbol t => exact symbols_not_fuse halternate hd
    | number y =>
      have numeric := (numeral_of_plain ho).2 d mem
      change (Symbol.ofSpelling? (s.spelling ++ [d])).isSome = false
      cases found : Symbol.ofSpelling? (s.spelling ++ [d]) with
      | none => rfl
      | some longer =>
        -- No spelling of a symbol has a digit or a point in it.
        have inLonger : d ∈ longer.spelling := by
          rw [Symbol.spelling_of_ofSpelling? found]
          simp
        rw [(Symbol.of_mem_spelling inLonger).1] at numeric
        cases numeric

end Token

/-! ### Many tokens -/

section

variable {m : Memory} {tokens : List Token}

/-- Where operands begin as they are awaited, the scanner cuts between the spelled tokens. -/
theorem split_spellAll {awaiting : Bool} (h : Alternates awaiting tokens)
    (hp : ∀ token ∈ tokens, token.Plain) :
    Lexeme.split (Token.spellAll tokens) = tokens.map Token.lexeme := by
  induction tokens generalizing awaiting with
  | nil => exact Lexeme.split_nil
  | cons token rest ih =>
    obtain ⟨plain, others⟩ := List.forall_mem_cons.mp hp
    have seam : ∀ d ∈ (Token.spellAll rest).head?, token.lexeme.fuses d = false := by
      cases rest with
      | nil => exact nofun
      | cons next later =>
        have plainNext := others next List.mem_cons_self
        rw [Token.spellAll_cons,
          List.head?_append_of_ne_nil _ (Token.spelling_ne_nil plainNext)]
        exact Token.not_fuses plain plainNext h.2.1
    obtain ⟨c, piece, hspelling⟩ := List.exists_cons_of_ne_nil (Token.spelling_ne_nil plain)
    have ht : token.lexeme.text = c :: piece := token.text_lexeme.trans hspelling
    have first := Lexeme.first_of_text (Token.proper_lexeme plain) ht seam
    rw [Token.spellAll_cons, hspelling, List.cons_append, Lexeme.split_cons_append first ht,
      ih h.2 others, List.map_cons]

/-- Spelled tokens are read back one for one, each at the offset where its spelling begins. -/
theorem Reading.ofLexemes_lexeme (hp : ∀ token ∈ tokens, token.Plain) (offset : Nat) :
    let reading := ofLexemes m offset (tokens.map Token.lexeme)
    reading.failure = none ∧
      reading.tokens.map Prod.fst = (List.range tokens.length).map
        (fun i ↦ offset + (Token.spellAll (tokens.take i)).length) ∧
      reading.tokens.map Prod.snd = tokens.map Token.reread := by
  induction tokens generalizing offset with
  | nil => exact ⟨rfl, rfl, rfl⟩
  | cons token rest ih =>
    obtain ⟨plain, others⟩ := List.forall_mem_cons.mp hp
    obtain ⟨done, offsets, read⟩ := ih others (offset + token.lexeme.length)
    simp only [List.map_cons, ofLexemes, Token.toToken_lexeme plain]
    refine ⟨done, ?_, by rw [read]⟩
    rw [offsets, List.length_cons, List.range_succ_eq_map, List.map_cons, List.map_map]
    congr 1
    refine List.map_congr_left fun i _ ↦ ?_
    rw [Function.comp_apply, List.take_succ_cons, Token.spellAll_cons, List.length_append,
      Lexeme.length, Token.text_lexeme, Nat.add_assoc]

/-- Spelled tokens are scanned as they were spelled. -/
theorem scan_of_alternates {awaiting : Bool} (h : Alternates awaiting tokens)
    (hp : ∀ token ∈ tokens, token.Plain) :
    let reading := Reading.scan m (Token.spellAll tokens) 0
    reading.failure = none ∧
      reading.tokens.map Prod.fst = (List.range tokens.length).map
        (fun i ↦ (Token.spellAll (tokens.take i)).length) ∧
      reading.tokens.map Prod.snd = tokens.map Token.reread := by
  have whole := Reading.ofLexemes_lexeme (m := m) hp 0
  simp only [Nat.zero_add] at whole
  rwa [Reading.scan, List.drop_zero, split_spellAll h hp]

end

namespace Stack

variable {p : Precision} {m : Memory} {stack other : Stack}

/-- Reading tokens back keeps the bottom of a level. -/
theorem AtBase.map_reread (h : AtBase stack) : AtBase (stack.map Token.reread) := by
  cases h with
  | bottom => exact .bottom
  | opened rest => exact .opened _

/-- Where an operand is awaited, one is awaited after reading back. -/
theorem Awaiting.map_reread (h : Awaiting stack) : Awaiting (stack.map Token.reread) := by
  cases h with
  | base h => exact .base h.map_reread
  | prefixOp op rest => exact .prefixOp op _
  | binaryOp op rest => exact .binaryOp op _

/-- Reading tokens back keeps what may lie on what. -/
theorem mayLieOn_reread {token : Token} {below : Stack} (h : token.MayLieOn below) :
    token.reread.MayLieOn (below.map Token.reread) := by
  match token, h with
  | .number (.finite x), h => exact AtBase.map_reread h
  | .number (.infinity negative), h => exact AtBase.map_reread h
  | .number (.nan negative signaling payload), h => exact AtBase.map_reread h
  | .symbol (.prefixOp op), h => exact Awaiting.map_reread h
  | .symbol (.separator .opening), h => exact Awaiting.map_reread h
  | .symbol (.binaryOp op), ⟨x, rest, heq⟩ =>
    subst heq
    cases x with
    | finite x => exact ⟨_, _, rfl⟩
    | infinity negative => exact ⟨_, _, rfl⟩
    | nan negative signaling payload => exact ⟨_, _, rfl⟩

/-- Reading tokens back keeps the shape of a stack. -/
theorem WellShaped.map_reread (hs : WellShaped stack) : WellShaped (stack.map Token.reread) := by
  induction stack with
  | nil => trivial
  | cons token below ih => exact ⟨mayLieOn_reread hs.1, ih hs.2⟩

/-- A well-shaped stack is the beginning of a sentence. -/
theorem WellShaped.exists_sentence (hs : WellShaped stack) :
    ∃ sentence : Level, stack.residue <+: sentence.tokens := by
  have taken := hs.pushMany_residue (p := .standard)
  exact (PartlyRead.start.pushMany taken).exists_sentence

/-- The spelled residue of a stack is read, and rebuilds the stack. -/
theorem WellShaped.reads_residue (hs : WellShaped stack) (hp : ∀ token ∈ stack, token.Plain) :
    Reads p m (Token.spellAll stack.residue) (stack.map Token.reread) := by
  obtain ⟨sentence, hsentence⟩ := hs.exists_sentence
  have plain : ∀ token ∈ stack.residue, token.Plain := fun t h ↦ hp t (List.mem_reverse.mp h)
  obtain ⟨done, -, read⟩ := scan_of_alternates (m := m) (alternates_of_sentence hsentence) plain
  refine ⟨done, ?_⟩
  rw [read, residue, List.map_reverse]
  exact hs.map_reread.pushMany_residue

/-- A text leaves at most one stack. -/
theorem Reads.unique {text : List Char} (h : Reads p m text stack) (ho : Reads p m text other) :
    stack = other := Except.ok.inj (h.2.symm.trans ho.2)

end Stack

/-- Tokens that are read back as the same tokens have the same values. -/
theorem sameValues_of_map_reread {tokens others : List Token} (hp : ∀ token ∈ tokens, token.Plain)
    (ho : ∀ token ∈ others, token.Plain)
    (h : tokens.map Token.reread = others.map Token.reread) :
    List.Forall₂ Token.SameValue tokens others := by
  induction tokens generalizing others with
  | nil =>
    obtain rfl := List.map_eq_nil_iff.mp h.symm
    exact .nil
  | cons token rest ih =>
    obtain ⟨other, later, rfl, hsame, hlater⟩ := List.map_eq_cons_iff.mp h.symm
    obtain ⟨plain, hrest⟩ := List.forall_mem_cons.mp hp
    obtain ⟨plainOther, hothers⟩ := List.forall_mem_cons.mp ho
    exact .cons (Token.sameValue_of_reread plain plainOther hsame.symm)
      (ih hrest hothers hlater.symm)

/-- Scanning undoes spelling. If a sentence begins with some tokens, whose numbers are finite and
have no minus sign, then the text that spells them one after the other is scanned to its end, and
gives them back one for one, each at the offset where its spelling begins: the same symbols, numbers
of the same value, and the same numbers where no exponent is positive. In particular the text of a
stack that comes about can be read, and rebuilds the stack up to the exponents of its numbers; so
two stacks with the same text are equal up to these. -/
theorem scan_spellAll (m : Memory) :
    (∀ (sentence : Level) (tokens : List Token), tokens <+: sentence.tokens →
      (∀ token ∈ tokens, token.Plain) →
      let reading := Reading.scan m (Token.spellAll tokens) 0
      reading.failure = none ∧
      reading.tokens.map Prod.fst = (List.range tokens.length).map
        (fun i ↦ (Token.spellAll (tokens.take i)).length) ∧
      List.Forall₂ Token.ComesBackAs tokens (reading.tokens.map Prod.snd)) ∧
    (∀ p stack, Reachable stack → (∀ token ∈ stack, token.Plain) →
      ∃ again, Reads p m (Token.spellAll stack.residue) again ∧
        List.Forall₂ Token.ComesBackAs stack again) ∧
    ∀ stack other, Reachable stack → Reachable other → (∀ token ∈ stack, token.Plain) →
      (∀ token ∈ other, token.Plain) →
      Token.spellAll stack.residue = Token.spellAll other.residue →
      List.Forall₂ Token.SameValue stack other := by
  have comeBack {tokens : List Token} (hp : ∀ token ∈ tokens, token.Plain) :
      List.Forall₂ Token.ComesBackAs tokens (tokens.map Token.reread) := by
    rw [List.forall₂_map_right_iff, List.forall₂_same]
    exact fun token h ↦ Token.comesBackAs_reread (hp token h)
  refine ⟨?_, ?_, ?_⟩
  · intro sentence tokens hprefix hp
    obtain ⟨done, offsets, read⟩ := scan_of_alternates (m := m) (alternates_of_sentence hprefix) hp
    exact ⟨done, offsets, read ▸ comeBack hp⟩
  · intro p stack hr hp
    exact ⟨_, hr.wellShaped.reads_residue hp, comeBack hp⟩
  · intro stack other hr ho hp hop same
    have read := hr.wellShaped.reads_residue (p := .standard) (m := m) hp
    rw [same] at read
    exact sameValues_of_map_reread hp hop (read.unique (ho.wellShaped.reads_residue hop))

/-- The tokens `1E+2 < <> ~ (` are spelled `100<<>~(`, which is scanned as these tokens again and
rebuilds their stack, with 100 for the number. -/
theorem scan_spellAll_hundred :
    let tokens : List Token := [.number (.finite ⟨false, 1, 2⟩), .symbol (.binaryOp .less),
      .symbol (.prefixOp .possible), .symbol (.prefixOp .complement), .opening]
    let text := ['1', '0', '0', '<', '<', '>', '~', '(']
    Token.spellAll tokens = text ∧
      List.Forall₂ Token.ComesBackAs tokens ((Reading.scan .empty text 0).tokens.map Prod.snd) ∧
      ∃ again, Reads .standard .empty text again ∧
        List.Forall₂ Token.ComesBackAs tokens.reverse again := by
  intro tokens text
  have spelled : Token.spellAll tokens = text := by decide +kernel
  have plain : ∀ token ∈ tokens, token.Plain := by
    refine List.forall_mem_cons.mpr ⟨FiniteDecimal.nonneg_of_negative rfl, ?_⟩
    simp [Token.Plain]
  have begun : tokens <+: (Level.binary (.single (.number (.finite ⟨false, 1, 2⟩))) .less
      (.prefixed .possible (.prefixed .complement (.group (.single (.number .zero)))))).tokens :=
    ⟨[.number .zero, .closing], rfl⟩
  have taken : pushMany .standard [] tokens = .ok tokens.reverse := rfl
  have reachable : Reachable tokens.reverse := Reachable.empty.pushMany taken
  obtain ⟨-, -, back⟩ := (scan_spellAll .empty).1 _ tokens begun plain
  have again := (scan_spellAll .empty).2.1 .standard tokens.reverse reachable
    fun t h ↦ plain t (List.mem_reverse.mp h)
  rw [residue, List.reverse_reverse, spelled] at again
  rw [spelled] at back
  exact ⟨spelled, back, again⟩

end FuzzyCalc
