import Mathlib.Data.Nat.Digits.Defs
import Calculator.Proofs.Numerals

/-!
# A text read from left to right

What a text says can be told without lexemes: it falls into pieces, each of which is a longest run of
digits or one other character, and a piece is read by what it is and by the character in front of it
(`ReadAs`). A cursor finds the pieces (`Cursor.loop`): it stands on the first character of a piece, moves
on to the last one and from there to the next piece. It looks back at one character only, so the lexeme
it came over matters for nothing but its last character (`Lexeme.opensOperand_some_iff`).
`tokenize` does the same (`Cursor.tokens_eq_tokenize`), and the one thing that keeps it from reading every
piece is a run that is too long (`tokenize_reads_pieces_or_fails_at_long_run`).
-/

namespace Calculator

/-- The value of a run of digits. The last digit counts once, the one before it ten times, and so on. -/
def decimalValue (digits : List Char) : Nat :=
  Nat.ofDigits 10 (digits.reverse.map fun c => c.toNat - '0'.toNat)

theorem decimalValue_eq_ofDigitChars (digits : List Char) : decimalValue digits = Nat.ofDigitChars 10 digits 0 := by
  induction digits with
  | nil => rfl
  | cons c digits ih =>
    rw [Nat.ofDigitChars_cons, Nat.ofDigitChars_eq_ofDigitChars_zero, ← ih, decimalValue, List.reverse_cons,
      List.map_append, Nat.ofDigits_append, List.length_map, List.length_reverse, List.map_singleton,
      Nat.ofDigits_singleton, Nat.mul_zero, Nat.zero_add, Nat.add_comm]
    rfl

/-- Behind this text a minus is a sign. -/
def SignBehind (front : List Char) : Prop :=
  front = [] ∨ ∃ c ∈ front.getLast?, c ∈ ['(', '*', '+', '/', '-']

/-- A piece of a text, with the text in front of it and the text behind it, and its token. -/
inductive ReadAs (front : List Char) : List Char → List Char → Token → Prop where
  | number {digits back : List Char} (hrun : IsRun front digits back) :
      ReadAs front digits back (.number (decimalValue digits))
  | opening {back : List Char} : ReadAs front ['('] back (.bracket .opening)
  | closing {back : List Char} : ReadAs front [')'] back (.bracket .closing)
  | add {back : List Char} : ReadAs front ['+'] back (.operator (.binary .add))
  | asterisk {back : List Char} : ReadAs front ['*'] back (.operator (.binary .mul))
  | dot {back : List Char} : ReadAs front ['⋅'] back (.operator (.binary .mul))
  | div {back : List Char} : ReadAs front ['/'] back (.operator (.binary .div))
  | sign {back : List Char} (hsign : SignBehind front) : ReadAs front ['-'] back (.operator .neg)
  | sub {back : List Char} (hsign : ¬ SignBehind front) : ReadAs front ['-'] back (.operator (.binary .sub))
  | name {back : List Char} {c : Char} (hdigit : ¬ c.isDigit) (hmark : c ∉ ['+', '-', '*', '/', '(', ')', '⋅']) :
      ReadAs front [c] back (.variable (String.singleton c))

/-- The pieces of the rest of a text behind `front`, from left to right, with one token for each of them. -/
inductive PiecesReadAs : List Char → List Char → List Token → Prop where
  | nil {front : List Char} : PiecesReadAs front [] []
  | cons {front piece back : List Char} {token : Token} {tokens : List Token}
      (hpiece : ReadAs front piece back token) (hback : PiecesReadAs (front ++ piece) back tokens) :
      PiecesReadAs front (piece ++ back) (token :: tokens)

/-- Some run of digits is longer than 4300. -/
def HasLongRun (text : List Char) : Prop :=
  ∃ front digits back, text = front ++ digits ++ back ∧ IsRun front digits back ∧ 4300 < digits.length

namespace Lexeme

theorem WellFormed.chars_ne_nil {lexeme : Lexeme} (h : lexeme.WellFormed) : lexeme.chars ≠ [] := by
  cases lexeme with
  | numeral digits => exact h.1
  | mark c => exact List.cons_ne_nil c []

theorem opensOperand_none_iff : opensOperand none = true ↔ SignBehind [] :=
  iff_of_true rfl (.inl rfl)

/-- Of the lexeme in front of a minus only the last character matters, and that is no digit. -/
theorem opensOperand_some_iff {lexeme : Lexeme} (hwf : lexeme.WellFormed) (front : List Char) :
    opensOperand (some lexeme) = true ↔ SignBehind (front ++ lexeme.chars) := by
  cases lexeme with
  | mark c => simp [opensOperand, SignBehind, chars]
  | numeral digits =>
    refine iff_of_false (by simp [opensOperand]) ?_
    rintro (hnil | ⟨c, hlast, hc⟩)
    · exact hwf.1 (List.append_eq_nil_iff.1 hnil).2
    · rw [chars, List.getLast?_append_of_ne_nil _ hwf.1] at hlast
      have hdigit := hwf.2 c (List.mem_of_getLast? hlast)
      simp only [List.mem_cons, List.not_mem_nil, or_false] at hc
      rcases hc with rfl | rfl | rfl | rfl | rfl <;> exact absurd hdigit (by decide)

theorem readable_iff_not_hasLongRun {text : List Char} :
    (∀ lexeme ∈ cut text, lexeme.Readable) ↔ ¬ HasLongRun text := by
  constructor
  · rintro hreadable ⟨front, digits, back, rfl, hrun, hlong⟩
    have hmem : numeral digits ∈ cut (front ++ digits ++ back) := by
      rw [cut_append_run hrun]
      simp
    exact Nat.not_le_of_lt hlong (hreadable _ hmem)
  · intro hno lexeme hmem
    cases lexeme with
    | mark c => trivial
    | numeral digits =>
      obtain ⟨front, back, hcut⟩ := List.append_of_mem hmem
      obtain ⟨htext, hrun, -⟩ := isRun_of_cut hcut
      exact Nat.le_of_not_lt fun hlong => hno ⟨_, digits, _, htext, hrun, hlong⟩

end Lexeme

namespace Token

theorem readable_of_ofLexemes {before : Option Lexeme} {lexemes : List Lexeme} {tokens : List Token}
    (h : ofLexemes before lexemes = .ok tokens) : ∀ lexeme ∈ lexemes, lexeme.Readable := by
  induction lexemes generalizing before tokens with
  | nil => simp
  | cons lexeme rest ih =>
    obtain ⟨token, others, htoken, hothers, -⟩ := ofLexemes_cons_eq_ok_iff.1 h
    have hno : ∀ error, ofLexeme before lexeme ≠ .error error := by simp [htoken]
    exact List.forall_mem_cons.2 ⟨ofLexeme_ne_error_iff.1 hno, ih hothers⟩

theorem ofLexeme_numeral {before : Option Lexeme} {digits : List Char} (h : (Lexeme.numeral digits).Readable) :
    ofLexeme before (.numeral digits) = .ok (.number (decimalValue digits)) := by
  have hlength : digits.length ≤ Numeral.maxDigits := h
  rw [ofLexeme, Numeral.read, if_pos hlength, decimalValue_eq_ofDigitChars]
  rfl

end Token

open Token Lexeme

section Reading

variable {front : List Char} {before : Option Lexeme}

/-! ### Pieces and lexemes -/

theorem ReadAs.of_mark {c : Char} (hdigit : ¬ c.isDigit) (hbefore : opensOperand before = true ↔ SignBehind front)
    (back : List Char) : ReadAs front [c] back (ofMark (opensOperand before) c) := by
  unfold ofMark
  split
  · exact .add
  · exact .asterisk
  · exact .dot
  · exact .div
  · split
    · rename_i hopens
      exact .sign (hbefore.1 hopens)
    · rename_i hopens
      exact .sub (mt hbefore.2 hopens)
  · exact .opening
  · exact .closing
  · exact .name hdigit (by simp_all)

theorem ReadAs.exists_lexeme {piece back : List Char} {token : Token} (h : ReadAs front piece back token)
    (hbefore : opensOperand before = true ↔ SignBehind front) :
    ∃ lexeme, lexeme.chars = piece ∧ cut (piece ++ back) = lexeme :: cut back ∧
      (lexeme.Readable → ofLexeme before lexeme = .ok token) := by
  have hmark {c : Char} {token : Token} (hdigit : ¬ c.isDigit) (htoken : ofMark (opensOperand before) c = token) :
      ∃ lexeme, lexeme.chars = [c] ∧ cut ([c] ++ back) = lexeme :: cut back ∧
        (lexeme.Readable → ofLexeme before lexeme = .ok token) :=
    ⟨mark c, rfl, cut_cons_mark hdigit back, fun _ => congrArg Except.ok htoken⟩
  cases h with
  | number hrun =>
    have hcut := cut_digits_append hrun.ne_nil hrun.isDigit (not_isNumeral_of_head?_cut hrun.back_start)
    exact ⟨numeral piece, rfl, hcut, ofLexeme_numeral⟩
  | opening => exact hmark (by decide) rfl
  | closing => exact hmark (by decide) rfl
  | add => exact hmark (by decide) rfl
  | asterisk => exact hmark (by decide) rfl
  | dot => exact hmark (by decide) rfl
  | div => exact hmark (by decide) rfl
  | sign hsign => exact hmark (by decide) (by rw [hbefore.2 hsign]; rfl)
  | sub hsign => exact hmark (by decide) (by rw [Bool.eq_false_iff.2 (mt hbefore.1 hsign)]; rfl)
  | name hdigit hc => exact hmark hdigit (ofMark_of_notMem hc _)

/-- The lexemes of a text are its pieces. A run of digits must not reach into the text in front. -/
theorem PiecesReadAs.of_ofLexemes {lexemes : List Lexeme} {tokens : List Token}
    (hwf : ∀ lexeme ∈ lexemes, lexeme.WellFormed) (hseparated : Separated lexemes)
    (hbefore : opensOperand before = true ↔ SignBehind front)
    (hfront : ∀ lexeme ∈ lexemes.head?, lexeme.IsNumeral → ∀ c ∈ front.getLast?, ¬ c.isDigit)
    (h : ofLexemes before lexemes = .ok tokens) : PiecesReadAs front (lexemes.flatMap chars) tokens := by
  induction lexemes generalizing front before tokens with
  | nil =>
    obtain rfl := eq_nil_of_ofLexemes h
    exact .nil
  | cons lexeme rest ih =>
    obtain ⟨token, others, htoken, hothers, rfl⟩ := ofLexemes_cons_eq_ok_iff.1 h
    obtain ⟨hlexeme, hrest⟩ := List.forall_mem_cons.1 hwf
    have hbehind := opensOperand_some_iff hlexeme front
    rw [List.flatMap_cons]
    cases lexeme with
    | numeral digits =>
      have hnext := hseparated.1 trivial
      have hrun : IsRun front digits (rest.flatMap chars) :=
        ⟨hlexeme.1, hlexeme.2, hfront _ rfl trivial, isDigit_head?_flatMap_chars hrest hnext⟩
      rw [ofLexeme_numeral (readable_of_ofLexemes h _ List.mem_cons_self)] at htoken
      obtain rfl := Except.ok.inj htoken
      refine .cons (.number hrun) (ih hrest hseparated.2 hbehind ?_ hothers)
      exact fun next hhead hnumeral => (hnext next hhead hnumeral).elim
    | mark c =>
      rw [ofLexeme_mark] at htoken
      obtain rfl := Except.ok.inj htoken
      have hc : ¬ c.isDigit := hlexeme
      refine .cons (.of_mark hc hbefore _) (ih hrest hseparated.2 hbehind ?_ hothers)
      simpa [chars] using fun _ _ _ => hc

theorem PiecesReadAs.ofLexemes_eq {back : List Char} {tokens : List Token} (h : PiecesReadAs front back tokens)
    (hbefore : opensOperand before = true ↔ SignBehind front)
    (hreadable : ∀ lexeme ∈ cut back, lexeme.Readable) : ofLexemes before (cut back) = .ok tokens := by
  induction h generalizing before with
  | nil => exact ofLexemes_nil before
  | @cons front piece back token tokens hpiece hback ih =>
    obtain ⟨lexeme, rfl, hcut, htoken⟩ := hpiece.exists_lexeme hbefore
    have hlexeme : lexeme.WellFormed := wellFormed_of_mem_cut _ _ (hcut ▸ List.mem_cons_self)
    rw [hcut] at hreadable ⊢
    obtain ⟨hfirst, hrest⟩ := List.forall_mem_cons.1 hreadable
    have hothers := ih (opensOperand_some_iff hlexeme front) hrest
    exact ofLexemes_cons_eq_ok_iff.2 ⟨token, tokens, htoken hfirst, hothers, rfl⟩

end Reading

/-! ### The cursor -/

namespace Cursor

/-- The first place from `place` on that has no digit. -/
def runEnd (text : List Char) (place : Nat) : Nat :=
  if h : place < text.length then
    if text[place].isDigit then runEnd text (place + 1) else place
  else place
  termination_by text.length - place

theorem le_runEnd (text : List Char) (place : Nat) : place ≤ runEnd text place := by
  fun_induction runEnd text place with
  | case1 place h hdigit ih => exact Nat.le_of_succ_le ih
  | case2 place h hdigit => exact Nat.le_refl place
  | case3 place h => exact Nat.le_refl place

/-- The characters with a token of their own. A minus is not among them. -/
def marks : List (Char × Token) :=
  [('+', .operator (.binary .add)), ('*', .operator (.binary .mul)), ('⋅', .operator (.binary .mul)),
    ('/', .operator (.binary .div)), ('(', .bracket .opening), (')', .bracket .closing)]

/-- The token that is read at a place, and the place of its last character. -/
structure Turn (place : Nat) where
  token : Token
  last : Nat
  le_last : place ≤ last

/-- A mark is its own last character. -/
def Turn.mark (place : Nat) (token : Token) : Turn place :=
  ⟨token, place, Nat.le_refl place⟩

def turn (text : List Char) (place : Nat) (h : place < text.length) : Except NumeralError (Turn place) :=
  let c := text[place]
  if c.isDigit then do
    let stop := runEnd text (place + 1)
    let value ← Numeral.read ((text.take stop).drop place)
    return ⟨.number value, stop - 1, Nat.le_sub_one_of_lt (le_runEnd text (place + 1))⟩
  else if c = '-' then
    if place = 0 ∨ text[place - 1] ∈ ['(', '*', '+', '/', '-'] then
      return .mark place (.operator .neg)
    else
      return .mark place (.operator (.binary .sub))
  else
    match marks.lookup c with
    | some token => return .mark place token
    | none => return .mark place (.variable (String.singleton c))

/-- The tokens from a place on, behind those that have been read. -/
def loop (text : List Char) (place : Nat) (tokens : List Token) : Except NumeralError (List Token) :=
  if h : place < text.length then do
    let turn ← turn text place h
    loop text (turn.last + 1) (tokens ++ [turn.token])
  else return tokens
  termination_by text.length - place
  decreasing_by
    have hlast := turn.le_last
    omega

/-- The tokens of a text, without the lexemes in between. -/
def tokens (text : String) : Except NumeralError (List Token) :=
  loop (significant text) 0 []

theorem runEnd_append {front digits back : List Char} (hdigits : ∀ c ∈ digits, c.isDigit)
    (hback : ∀ c ∈ back.head?, ¬ c.isDigit) :
    runEnd (front ++ (digits ++ back)) front.length = front.length + digits.length := by
  induction digits generalizing front with
  | nil =>
    rw [runEnd]
    cases back with
    | nil => simp
    | cons c back => simp [hback c rfl]
  | cons c digits ih =>
    obtain ⟨hc, hrest⟩ := List.forall_mem_cons.1 hdigits
    have hstep : runEnd (front ++ [c] ++ (digits ++ back)) (front ++ [c]).length = _ := ih hrest
    rw [List.append_assoc, List.singleton_append, List.length_append, List.length_singleton] at hstep
    rw [runEnd, List.cons_append]
    simp only [List.length_append, List.length_cons, List.getElem_append_right (Nat.le_refl front.length),
      Nat.sub_self, List.getElem_cons_zero, hc, hstep, if_true]
    rw [dif_pos (by omega)]
    omega

theorem signBehind_iff {front back : List Char} (h : front.length - 1 < (front ++ back).length) :
    SignBehind front ↔
      front.length = 0 ∨ (front ++ back)[front.length - 1] ∈ ['(', '*', '+', '/', '-'] := by
  rcases List.eq_nil_or_concat front with rfl | ⟨init, c, rfl⟩
  · simp [SignBehind]
  · simp [SignBehind]

theorem ofMark_eq_of_lookup (isSign : Bool) {c : Char} (hminus : c ≠ '-') :
    ofMark isSign c = (marks.lookup c).getD (.variable (String.singleton c)) := by
  by_cases hmark : c ∈ ['+', '-', '*', '/', '(', ')', '⋅']
  · simp only [List.mem_cons, List.not_mem_nil, or_false] at hmark
    rcases hmark with rfl | rfl | rfl | rfl | rfl | rfl | rfl
    · rfl
    · exact absurd rfl hminus
    all_goals rfl
  · rw [ofMark_of_notMem hmark, List.lookup_eq_none_iff.2 (by simp_all [marks])]
    rfl

variable {front back : List Char}

theorem turn_numeral {c : Char} {digits : List Char} (hdigits : ∀ d ∈ c :: digits, d.isDigit)
    (hback : ∀ d ∈ back.head?, ¬ d.isDigit) (h : front.length < (front ++ (c :: digits ++ back)).length) :
    (fun turn => (turn.token, turn.last + 1)) <$> turn (front ++ (c :: digits ++ back)) front.length h =
      (fun value : Nat => (number value, (front ++ c :: digits).length)) <$> Numeral.read (c :: digits) := by
  obtain ⟨hc, hrest⟩ := List.forall_mem_cons.1 hdigits
  have hchar : (front ++ (c :: digits ++ back))[front.length] = c := by simp
  have hend : runEnd (front ++ (c :: digits ++ back)) (front.length + 1) = front.length + (digits.length + 1) := by
    have hinner : runEnd (front ++ [c] ++ (digits ++ back)) (front ++ [c]).length = _ := runEnd_append hrest hback
    simpa [Nat.add_comm, Nat.add_left_comm] using hinner
  have hpiece : ((front ++ (c :: digits ++ back)).take (front.length + (digits.length + 1))).drop front.length =
      c :: digits := by
    rw [List.take_length_add_append, List.drop_left' rfl, List.take_left' (List.length_cons ..)]
  rw [turn]
  simp only [hchar, hend, hpiece]
  rw [if_pos hc]
  cases Numeral.read (c :: digits) with
  | error error => rfl
  | ok value =>
    -- The cursor goes back to the last digit before it moves on. There is one, so nothing is cut off at zero.
    have hplace : front.length + (digits.length + 1) - 1 + 1 = (front ++ c :: digits).length := by
      simp only [List.length_append, List.length_cons]
      omega
    exact congrArg (fun place => Except.ok (number value, place)) hplace

theorem turn_mark {c : Char} {isSign : Bool} (hdigit : ¬ c.isDigit) (hsign : isSign = true ↔ SignBehind front)
    (h : front.length < (front ++ ([c] ++ back)).length) :
    (fun turn => (turn.token, turn.last + 1)) <$> turn (front ++ ([c] ++ back)) front.length h =
      .ok (ofMark isSign c, front.length + 1) := by
  have hhere : front.length - 1 < (front ++ ([c] ++ back)).length := Nat.lt_of_le_of_lt (Nat.sub_le ..) h
  have hchar : (front ++ ([c] ++ back))[front.length] = c := by simp
  rw [turn]
  simp only [hchar]
  rw [if_neg hdigit]
  by_cases hminus : c = '-'
  · subst hminus
    rw [if_pos rfl]
    by_cases hbehind : SignBehind front
    · rw [if_pos ((signBehind_iff hhere).1 hbehind), hsign.2 hbehind]
      rfl
    · rw [if_neg (mt (signBehind_iff hhere).2 hbehind), Bool.eq_false_iff.2 (mt hsign.1 hbehind)]
      rfl
  · rw [if_neg hminus, ofMark_eq_of_lookup _ hminus]
    cases marks.lookup c <;> rfl

variable {before : Option Lexeme} {lexeme : Lexeme}

/-- One turn reads one lexeme and ends at its last character. -/
theorem turn_lexeme (hwf : lexeme.WellFormed) (hnext : lexeme.IsNumeral → ∀ c ∈ back.head?, ¬ c.isDigit)
    (hbefore : opensOperand before = true ↔ SignBehind front)
    (h : front.length < (front ++ (lexeme.chars ++ back)).length) :
    (fun turn => (turn.token, turn.last + 1)) <$> turn (front ++ (lexeme.chars ++ back)) front.length h =
      (fun token => (token, (front ++ lexeme.chars).length)) <$> ofLexeme before lexeme := by
  cases lexeme with
  | numeral digits =>
    obtain ⟨c, rest, rfl⟩ := List.exists_cons_of_ne_nil hwf.1
    refine (turn_numeral hwf.2 (hnext trivial) h).trans ?_
    rw [ofLexeme]
    cases Numeral.read (c :: rest) <;> rfl
  | mark c =>
    refine (turn_mark hwf hbefore h).trans ?_
    rw [ofLexeme_mark, chars, List.length_append]
    rfl

theorem loop_lexemes {lexemes : List Lexeme} {tokens : List Token}
    (hwf : ∀ lexeme ∈ lexemes, lexeme.WellFormed) (hseparated : Separated lexemes)
    (hbefore : opensOperand before = true ↔ SignBehind front) :
    loop (front ++ lexemes.flatMap chars) front.length tokens =
      (fun others => tokens ++ others) <$> ofLexemes before lexemes := by
  -- The induction is on the lexemes that are left. The cursor stands in front of them, behind `front`.
  induction lexemes generalizing front before tokens with
  | nil =>
    rw [loop]
    simp [ofLexemes_nil, pure, Except.pure]
  | cons lexeme rest ih =>
    obtain ⟨hlexeme, hrest⟩ := List.forall_mem_cons.1 hwf
    have hnext (hnumeral : lexeme.IsNumeral) := isDigit_head?_flatMap_chars hrest (hseparated.1 hnumeral)
    have hlt : front.length < (front ++ (lexeme.chars ++ rest.flatMap chars)).length := by
      have hchars := List.length_pos_iff.2 hlexeme.chars_ne_nil
      simp only [List.length_append]
      omega
    have hturn := turn_lexeme hlexeme hnext hbefore hlt
    rw [List.flatMap_cons, loop, dif_pos hlt, ofLexemes]
    cases htoken : ofLexeme before lexeme with
    | error error =>
      rw [htoken] at hturn
      rw [map_eq_error_iff.1 hturn]
      rfl
    | ok token =>
      rw [htoken] at hturn
      obtain ⟨turn, hturn, hsame⟩ := map_eq_ok_iff.1 hturn
      obtain ⟨htoken, hplace⟩ := Prod.mk.inj hsame
      have hloop : loop _ _ (tokens ++ [token]) = _ := ih hrest hseparated.2 (opensOperand_some_iff hlexeme front)
      rw [List.append_assoc] at hloop
      rw [hturn]
      show loop _ (turn.last + 1) (tokens ++ [turn.token]) = _
      rw [htoken, hplace, hloop]
      cases ofLexemes (some lexeme) rest <;> simp [bind, Except.bind, pure, Except.pure, Functor.map, Except.map]

theorem tokens_eq_tokenize (text : String) : Cursor.tokens text = tokenize text := by
  have hloop : loop ([] ++ _) (List.length []) [] = _ :=
    loop_lexemes (wellFormed_of_mem_cut (significant text)) (separated_cut _) opensOperand_none_iff
  rw [flatMap_chars_cut] at hloop
  refine hloop.trans ?_
  rw [tokenize]
  cases ofLexemes none (cut (significant text)) <;> rfl

end Cursor

section Tokenize

variable {text : String}

theorem tokenize_eq_ok_iff {tokens : List Token} :
    tokenize text = .ok tokens ↔ ¬ HasLongRun (significant text) ∧ PiecesReadAs [] (significant text) tokens := by
  rw [← readable_iff_not_hasLongRun]
  constructor
  · intro h
    have hpieces := PiecesReadAs.of_ofLexemes (wellFormed_of_mem_cut _) (separated_cut _) opensOperand_none_iff
      (fun _ _ _ => by simp) h
    exact ⟨readable_of_ofLexemes h, flatMap_chars_cut (significant text) ▸ hpieces⟩
  · rintro ⟨hreadable, hpieces⟩
    exact hpieces.ofLexemes_eq opensOperand_none_iff hreadable

theorem exists_error_iff_hasLongRun : (∃ error, tokenize text = .error error) ↔ HasLongRun (significant text) := by
  constructor
  · rintro ⟨error, herror⟩
    obtain ⟨length, ⟨front, digits, back, htext, hrun, rfl, hlong, -⟩, -⟩ := tokenize_eq_error_iff.1 herror
    exact ⟨front, digits, back, htext, hrun, hlong⟩
  · intro hlong
    cases htokens : tokenize text with
    | error error => exact ⟨error, rfl⟩
    | ok tokens => exact absurd hlong (tokenize_eq_ok_iff.1 htokens).1

/-- A text is refused at its first run that is too long. Otherwise its pieces are read, one token for each,
and there is no other way to read them. -/
theorem tokenize_reads_pieces_or_fails_at_long_run (text : String) :
    Cursor.tokens text = tokenize text ∧
      ((∃ error, tokenize text = .error error) ↔ HasLongRun (text.toList.filter (· ≠ ' '))) ∧
      (∀ error, tokenize text = .error error ↔ ∃ length, FirstLongRun (text.toList.filter (· ≠ ' ')) length ∧
        error = .tooLongToRead length ∧
        error.message = "Exceeds the limit (4300 digits) for integer string conversion: value has " ++
          length.repr ++ " digits; use sys.set_int_max_str_digits() to increase the limit") ∧
      (¬ HasLongRun (text.toList.filter (· ≠ ' ')) → ∃ tokens, tokenize text = .ok tokens ∧
        ∀ others, PiecesReadAs [] (text.toList.filter (· ≠ ' ')) others ↔ others = tokens) := by
  refine ⟨Cursor.tokens_eq_tokenize text, exists_error_iff_hasLongRun, fun error => ?_, fun hno => ?_⟩
  · rw [tokenize_eq_error_iff]
    constructor
    · rintro ⟨length, hfirst, rfl⟩
      exact ⟨length, hfirst, rfl, rfl⟩
    · rintro ⟨length, hfirst, hread, -⟩
      exact ⟨length, hfirst, hread⟩
  · cases htokens : tokenize text with
    | error error => exact absurd (exists_error_iff_hasLongRun.1 ⟨error, htokens⟩) hno
    | ok tokens =>
      refine ⟨tokens, rfl, fun others => ⟨fun hothers => ?_, ?_⟩⟩
      · have hsame := tokenize_eq_ok_iff.2 ⟨hno, hothers⟩
        rw [htokens] at hsame
        exact (Except.ok.inj hsame).symm
      · rintro rfl
        exact (tokenize_eq_ok_iff.1 htokens).2

/-- Digits that a space keeps apart are one run, a minus behind the dot subtracts, and a digit of another
script is a name. -/
example : tokenize "0 07⋅-٣" =
    .ok [.number 7, .operator (.binary .mul), .operator (.binary .sub), .variable "٣"] := by
  decide +kernel

end Tokenize

end Calculator
