import Calculator.Proofs.History

/-!
# Names that can be bound and names that can be read

A line binds any single character but a blank and the equals sign, while a text reads only some
characters as names (`IsNameChar`). The difference is silent: a name that cannot be read is bound, and a
line of just this character has a meaning of its own, which is never printed as a float is
(`exists_answers_of_not_isNameChar`). So the names for which a binding is of use are just those that
lexing knows (`Session.reply_eq_bound_value_iff`).
-/

namespace Calculator

/-! ### How floats are printed -/

namespace Binary64

theorem not_isDigit_space : ¬ ' '.isDigit := by
  decide

theorem space_notMem_toDigits (n : Nat) : ' ' ∉ Nat.toDigits 10 n := fun h =>
  not_isDigit_space (Nat.isDigit_of_mem_toDigits (by decide) (by decide) h)

theorem space_notMem_fraction {fraction : List Char} (h : ' ' ∉ fraction) :
    ' ' ∉ (if fraction.isEmpty then ['0'] else fraction) ∧
      0 < (if fraction.isEmpty then ['0'] else fraction).length := by
  cases fraction with
  | nil => simp
  | cons c rest => simpa using h

theorem space_notMem_positional {digits : List Char} {exponent : Int} (h : ' ' ∉ digits) :
    ' ' ∉ positional digits exponent ∧ 2 ≤ (positional digits exponent).length := by
  unfold positional
  dsimp only
  split
  · simp [h]
  · have hwhole : ' ' ∉ digits.take (exponent.toNat + 1) := fun hmem => h (List.mem_of_mem_take hmem)
    have hdrop : ' ' ∉ digits.drop (exponent.toNat + 1) := fun hmem => h (List.mem_of_mem_drop hmem)
    obtain ⟨hfraction, hpos⟩ := space_notMem_fraction hdrop
    constructor
    · simp only [List.mem_append, List.mem_cons, List.mem_replicate, hwhole, hfraction]
      simp
    · rw [List.length_append, List.length_cons]
      omega

theorem space_notMem_scientific {digits : List Char} (exponentDigits : Nat) (exponent : Int) (h : ' ' ∉ digits) :
    ' ' ∉ scientific exponentDigits digits exponent ∧ 2 ≤ (scientific exponentDigits digits exponent).length := by
  have hwhole : ' ' ∉ digits.take 1 := fun hmem => h (List.mem_of_mem_take hmem)
  have hfraction : ' ' ∉ if (digits.drop 1).isEmpty then [] else '.' :: digits.drop 1 := by
    split
    · simp
    · exact List.not_mem_cons_of_ne_of_not_mem (by decide) fun hmem => h (List.mem_of_mem_drop hmem)
  have hsign : ' ' ≠ if exponent < 0 then '-' else '+' := by split <;> decide
  unfold scientific
  dsimp only
  constructor
  · simp only [List.mem_append, List.mem_cons, List.mem_replicate, hwhole, hfraction, hsign, space_notMem_toDigits]
    simp
  · rw [List.length_append, List.length_cons, List.length_cons]
    omega

theorem space_notMem_write (layout : Layout) (decimal : Decimal) :
    ' ' ∉ layout.write decimal ∧ 2 ≤ (layout.write decimal).length := by
  have hdigits : ' ' ∉ ((Nat.toDigits 10 decimal.digits).reverse.dropWhile (· = '0')).reverse := by
    intro hmem
    have hmem := (List.dropWhile_sublist _).subset (List.mem_reverse.1 hmem)
    exact space_notMem_toDigits _ (List.mem_reverse.1 hmem)
  unfold Layout.write
  dsimp only
  split
  · exact space_notMem_positional hdigits
  · exact space_notMem_scientific _ _ hdigits

/-- No float is printed with a space or as a single character. -/
theorem space_notMem_text (value : Float) : ' ' ∉ (text value).toList ∧ 2 ≤ (text value).toList.length := by
  have hsign : ∀ bits : Nat, ' ' ∉ if bits < signBit then [] else ['-'] := by
    intro bits
    split <;> simp
  have hunsigned : ∀ bits, ' ' ∉ unsignedText bits ∧ 2 ≤ (unsignedText bits).length := by
    intro bits
    unfold unsignedText
    split
    · exact space_notMem_positional (by decide)
    · exact space_notMem_write _ _
  unfold text
  dsimp only
  split
  · decide
  · split
    · simp [hsign]
    · obtain ⟨hspace, hlength⟩ := hunsigned (value.toBits.toNat % signBit)
      rw [String.toList_ofList, List.length_append, List.mem_append]
      exact ⟨not_or.2 ⟨hsign _, hspace⟩, by omega⟩

end Binary64

/-! ### Texts of a single character -/

section Single

variable {text : String} {c : Char} {bindings : Bindings Number}

theorem tokenize_of_single_mark (htext : Token.significant text = [c]) (hdigit : ¬ c.isDigit) :
    tokenize text = .ok [Token.ofMark true c] := by
  rw [tokenize, htext, Lexeme.cut_cons_mark hdigit]
  rfl

theorem tokenize_of_single_digit (htext : Token.significant text = [c]) (hdigit : c.isDigit) :
    ∃ n : Nat, n < 10 ∧ tokenize text = .ok [.number n] := by
  refine ⟨c.toNat - '0'.toNat, ?_, ?_⟩
  · have hcode := (Char.isDigit_iff_toNat.1 hdigit).2
    have hzero : '0'.toNat = 48 := rfl
    have hnine : '9'.toNat = 57 := rfl
    omega
  · rw [tokenize, htext, Lexeme.cut, if_pos hdigit]
    show (do let n ← Numeral.read [c]; pure [Token.number n]) = _
    rw [Numeral.read, if_pos (by simp [Numeral.maxDigits])]
    simp [pure, Except.pure, bind, Except.bind, Nat.ofDigitChars_cons, Nat.ofDigitChars_nil]

theorem Answers.of_isNameChar {value : Float} (htext : Token.significant text = [c]) (hc : IsNameChar c)
    (hvalue : bindings (String.singleton c) = some (.float value)) : Answers bindings text (Binary64.text value) := by
  have htokens := tokenize_of_single_mark htext hc.1
  rw [Token.ofMark_of_isNameChar hc] at htokens
  have hparse := parse_eq_ok_of_nest htokens rfl (Expr.ofItems_variable _)
  have heval : (Expr.variable (String.singleton c)).eval Number.arithmetic bindings = .ok (.float value) := by
    rw [Expr.eval_eq_denote, Expr.denote, hvalue]
  exact .value hparse heval rfl

theorem ofMark_of_not_isNameChar (hc : ¬ IsNameChar c) (hdigit : ¬ c.isDigit) (hspace : c ≠ ' ') (isSign : Bool) :
    (∃ op, Token.ofMark isSign c = .operator op) ∨ ∃ side, Token.ofMark isSign c = .bracket side := by
  unfold Token.ofMark
  split <;> simp_all [IsNameChar]

theorem exists_answers_of_isDigit (htext : Token.significant text = [c]) (hdigit : c.isDigit)
    (bindings : Bindings Number) : ∃ shown, Answers bindings text shown ∧ shown.toList.length < 2 := by
  obtain ⟨n, hn, htokens⟩ := tokenize_of_single_digit htext hdigit
  have hlength : (Nat.toDigits 10 n).length ≤ 1 := (Nat.length_toDigits_le_iff (by decide) (by decide)).2 hn
  have hbound : n < Numeral.bound := Numeral.length_toDigits_le_maxDigits_iff.1 (Nat.le_trans hlength (by decide))
  have hparse := parse_eq_ok_of_nest htokens rfl (Expr.ofItems_number _)
  refine ⟨_, .value hparse (Expr.eval_eq_denote _ _ _) (Numeral.write_natCast hbound), ?_⟩
  rw [String.toList_ofList]
  exact Nat.lt_succ_of_le hlength

theorem space_mem_message {error : EvalError ArithmeticError} (h : ∀ cause, error ≠ .arithmetic cause) :
    ' ' ∈ error.message.toList := by
  cases error with
  | arithmetic cause => exact (h cause rfl).elim
  | empty => simp [EvalError.message]
  | missingOperand op => simp [EvalError.message]
  | unbound name => simp [EvalError.message]

theorem ofItems_nil : Expr.ofItems [] = .ok .absent :=
  Expr.ofItems_of_length_ne_one rfl (by decide)

theorem exists_ofItems_operator (op : Operator) :
    ∃ expr, Expr.ofItems [.token (.operator op)] = .ok expr ∧
      ∀ bindings : Bindings Number, expr.eval Number.arithmetic bindings = .error (.missingOperand op) := by
  cases op with
  | neg =>
    refine ⟨.neg .absent, ?_, fun bindings => ?_⟩
    · rw [Expr.ofItems_neg_cons (operatorsBelow_nil 2), ofItems_nil]
      rfl
    · rw [Expr.eval_eq_denote]
      rfl
  | binary op =>
    refine ⟨.binary op .absent .absent, ?_, fun bindings => ?_⟩
    · have hbefore := operatorsBelow_nil (op.precedence + 1)
      have hsplit := Expr.ofItems_append_binary hbefore (operatorsBelow_nil op.precedence)
      rw [ofItems_nil] at hsplit
      exact hsplit
    · rw [Expr.eval_eq_denote]
      rfl

theorem exists_answers_of_operator {op : Operator} (htokens : tokenize text = .ok [.operator op])
    (bindings : Bindings Number) : ∃ shown, Answers bindings text shown ∧ ' ' ∈ shown.toList := by
  obtain ⟨expr, hexpr, heval⟩ := exists_ofItems_operator op
  have hparse := parse_eq_ok_of_nest htokens rfl hexpr
  exact ⟨_, .failure hparse (heval bindings) id, space_mem_message nofun⟩

theorem exists_answers_of_bracket {side : Bracket} (htokens : tokenize text = .ok [.bracket side])
    (bindings : Bindings Number) : ∃ shown, Answers bindings text shown ∧ ' ' ∈ shown.toList := by
  cases side with
  | opening =>
    have hparse := parse_eq_ok_of_nest htokens rfl ((Expr.ofItems_group []).trans ofItems_nil)
    exact ⟨_, .failure hparse (Expr.eval_eq_denote _ _ _) id, space_mem_message nofun⟩
  | closing =>
    have hnest : nest [.bracket .closing] = .error ⟨[.bracket .closing], 0⟩ := rfl
    have hmessage : (⟨[.bracket .closing], 0⟩ : UnmatchedClosing).message =
        .ok "Parser error: Unmatched closing bracket\n)\n^" := by decide
    exact ⟨_, .unmatched ((parse_eq_unmatchedClosing_iff htokens).2 hnest) hmessage, by decide⟩

/-- A character that is no name is answered by a digit or by a message. -/
theorem exists_answers_of_not_isNameChar (htext : Token.significant text = [c]) (hc : ¬ IsNameChar c)
    (bindings : Bindings Number) :
    ∃ shown, Answers bindings text shown ∧ (' ' ∈ shown.toList ∨ shown.toList.length < 2) := by
  by_cases hdigit : c.isDigit
  · obtain ⟨shown, hanswer, hlength⟩ := exists_answers_of_isDigit htext hdigit bindings
    exact ⟨shown, hanswer, .inr hlength⟩
  · have htokens := tokenize_of_single_mark htext hdigit
    have hspace : c ≠ ' ' := by
      have hmem : c ∈ Token.significant text := by simp [htext]
      simpa using (List.mem_filter.1 hmem).2
    have hanswers : ∃ shown, Answers bindings text shown ∧ ' ' ∈ shown.toList := by
      rcases ofMark_of_not_isNameChar hc hdigit hspace true with ⟨op, hop⟩ | ⟨side, hside⟩
      · exact exists_answers_of_operator (hop ▸ htokens) bindings
      · exact exists_answers_of_bracket (hside ▸ htokens) bindings
    obtain ⟨shown, hanswer, hmem⟩ := hanswers
    exact ⟨shown, hanswer, .inl hmem⟩

end Single

namespace Text

theorem mem_of_mem_trim {drops : Char → Bool} {text : List Char} {c : Char} (h : c ∈ trim drops text) : c ∈ text := by
  have hrear := (List.dropWhile_sublist _).subset (List.mem_reverse.1 h)
  exact (List.dropWhile_sublist _).subset (List.mem_reverse.1 hrear)

end Text

namespace Session

variable {c : Char} {value : Float} {line text : String} {before between : List String}

theorem notMem_of_boundValue? (hbound : boundValue? c line = some value) (htext : Token.significant text = [c]) :
    '=' ∉ text.toList := by
  intro hmem
  obtain ⟨name, -, -, hname, htrim, -⟩ := boundValue?_eq_some_iff.1 hbound
  have hsignificant : '=' ∈ Token.significant text := List.mem_filter.2 ⟨hmem, by decide⟩
  rw [htext, List.mem_singleton] at hsignificant
  have hc : c ∈ Text.trim Text.isBlankOrSeparator name := by simp [htrim]
  exact hname (hsignificant ▸ Text.mem_of_mem_trim hc)

/-- A binding that is accepted and not made again shows when its name is evaluated, exactly if the name is
a character that lexing takes for one. The digits, the operators and the brackets can be bound too, but
they keep the meaning that they have in a text. -/
theorem reply_eq_bound_value_iff (hbound : boundValue? c line = some value)
    (hkept : ∀ other ∈ between, boundValue? c other = none)
    (hrun : (start.run (before ++ line :: between)).failure = none) (htext : text.toList.filter (· ≠ ' ') = [c])
    (after : List String) :
    (start.run (before ++ line :: between ++ text :: after)).printed[(before ++ line :: between).length]? =
        some [Binary64.text value] ↔
      IsNameChar c := by
  have hequals := notMem_of_boundValue? hbound htext
  by_cases hc : IsNameChar c
  · have hlatest : latest? c (before ++ line :: between) = some value :=
      latest?_eq_some_iff.2 ⟨before, line, between, rfl, hbound, hkept⟩
    have hvalue : boundBy (before ++ line :: between) (String.singleton c) = some (.float value) := by
      simp [boundBy, hlatest]
    have hanswer := Answers.of_isNameChar htext hc hvalue
    simp only [hc, iff_true]
    exact getElem?_printed_of_answers hrun hequals hanswer after
  · obtain ⟨shown, hanswer, hshown⟩ := exists_answers_of_not_isNameChar htext hc (boundBy (before ++ line :: between))
    rw [getElem?_printed_of_answers hrun hequals hanswer after]
    simp only [hc, iff_false]
    intro hsame
    obtain rfl : shown = Binary64.text value := by simpa using hsame
    obtain ⟨hspace, hlength⟩ := Binary64.space_notMem_text value
    rcases hshown with hmem | hshort
    · exact hspace hmem
    · omega

/-- The bindings of other names do not come in between. -/
theorem reply_eq_bound_value_of_letter :
    ∃ value, boundValue? 'x' "x = 3" = some value ∧ Binary64.text value = "3.0" ∧
      (∀ other ∈ ["y = 2"], boundValue? 'x' other = none) ∧
      (start.run (["y = 1"] ++ "x = 3" :: ["y = 2"])).failure = none ∧ " x".toList.filter (· ≠ ' ') = ['x'] ∧
      (start.run (["y = 1"] ++ "x = 3" :: ["y = 2"] ++ " x" :: ["x = 4"])).printed[3]? =
        some [Binary64.text value] := by
  have hshown : (boundValue? 'x' "x = 3").map Binary64.text = some "3.0" := by decide +kernel
  obtain ⟨value, hvalue, htext⟩ := Option.map_eq_some_iff.1 hshown
  have hkept : ∀ other ∈ ["y = 2"], boundValue? 'x' other = none := by decide +kernel
  have hrun : (start.run (["y = 1"] ++ "x = 3" :: ["y = 2"])).failure = none := by decide +kernel
  have hname : " x".toList.filter (· ≠ ' ') = ['x'] := by decide
  refine ⟨value, hvalue, htext, hkept, hrun, hname, ?_⟩
  exact (reply_eq_bound_value_iff hvalue hkept hrun hname ["x = 4"]).2 (by decide)

/-- A digit is bound without a word, and then evaluated as a digit. -/
theorem reply_of_bound_digit_ne :
    (boundValue? '5' "5 = 3").map Binary64.text = some "3.0" ∧ (start.run ["5 = 3", "5"]).failure = none ∧
      (start.run ["5 = 3", "5"]).printed = [[], ["5"]] := by
  decide +kernel

end Session

end Calculator
