import Mathlib.Data.List.TakeWhile
import Calculator.Session
import Calculator.Proofs.Numerals
import Calculator.Proofs.Variables

/-!
# What a session replies to a line

A line is either a binding or a text to be evaluated. What is printed for it, or why it ends the session,
is told here by rules that follow the line alone and the bindings at hand: `Replies` and `Breaks`. The
rules leave out no line and never apply both (`Session.step_eq_error_iff`, `Session.exists_step_of_replies`).
They look at no other bindings than those of the characters of the line (`Answers.congr`,
`Breaks.congr`), and a step changes no binding but the one that the line makes (`Session.replies_of_step`).
-/

namespace Calculator

/-! ### Requests -/

namespace Session

variable {line : String} {name value : List Char}

namespace Request

theorem ofLine_of_equals (hline : line.toList = name ++ '=' :: value) (hname : '=' ∉ name) :
    ofLine line = .bind name value := by
  have hfront : ∀ c ∈ name, decide (c ≠ '=') = true := by
    intro c hc
    exact decide_eq_true fun heq => hname (heq ▸ hc)
  rw [ofLine, hline, List.span_eq_takeWhile_dropWhile, List.takeWhile_append_of_pos hfront,
    List.dropWhile_append_of_pos hfront]
  simp

theorem ofLine_of_notMem (h : '=' ∉ line.toList) : ofLine line = .compute line := by
  have hall : ∀ c ∈ line.toList, decide (c ≠ '=') = true := by
    intro c hc
    exact decide_eq_true fun heq => h (heq ▸ hc)
  rw [ofLine, List.span_eq_takeWhile_dropWhile, List.dropWhile_eq_nil_iff.2 hall]

end Request

theorem exists_equals_or_notMem (line : String) :
    (∃ name value, line.toList = name ++ '=' :: value ∧ '=' ∉ name) ∨ '=' ∉ line.toList := by
  by_cases h : '=' ∈ line.toList
  · obtain ⟨name, value, hline, hname⟩ := List.eq_append_cons_of_mem h
    exact .inl ⟨name, value, hline, hname⟩
  · exact .inr h

/-- The value that a line binds a name to, if it does. -/
def boundValue? (c : Char) (line : String) : Option Float :=
  match Request.ofLine line with
  | .bind name value =>
    if Text.trim Text.isBlankOrSeparator name = [c] then Binary64.read? value else none
  | .compute _ => none

theorem boundValue?_of_equals (c : Char) (hline : line.toList = name ++ '=' :: value) (hname : '=' ∉ name) :
    boundValue? c line =
      if Text.trim Text.isBlankOrSeparator name = [c] then Binary64.read? value else none := by
  rw [boundValue?, Request.ofLine_of_equals hline hname]

theorem boundValue?_of_notMem (c : Char) (h : '=' ∉ line.toList) : boundValue? c line = none := by
  rw [boundValue?, Request.ofLine_of_notMem h]

theorem boundValue?_eq_some_iff {c : Char} {float : Float} :
    boundValue? c line = some float ↔
      ∃ name value, line.toList = name ++ '=' :: value ∧ '=' ∉ name ∧
        Text.trim Text.isBlankOrSeparator name = [c] ∧ Binary64.read? value = some float := by
  constructor
  · intro h
    rcases exists_equals_or_notMem line with ⟨name, value, hline, hname⟩ | hnone
    · rw [boundValue?_of_equals c hline hname] at h
      split at h
      · rename_i htrim
        exact ⟨name, value, hline, hname, htrim, h⟩
      · simp at h
    · rw [boundValue?_of_notMem c hnone] at h
      simp at h
  · rintro ⟨name, value, hline, hname, htrim, hread⟩
    rw [boundValue?_of_equals c hline hname, if_pos htrim, hread]

theorem eq_of_boundValue?_ne_none {c d : Char} (hc : boundValue? c line ≠ none) (hd : boundValue? d line ≠ none) :
    c = d := by
  obtain ⟨left, hleft⟩ := Option.ne_none_iff_exists'.1 hc
  obtain ⟨right, hright⟩ := Option.ne_none_iff_exists'.1 hd
  obtain ⟨name, value, hline, hname, htrim, -⟩ := boundValue?_eq_some_iff.1 hleft
  rw [boundValue?_of_equals d hline hname] at hd
  split at hd
  · rename_i hsame
    simpa [htrim] using hsame
  · exact absurd rfl hd

end Session

/-- Evaluation left the range of the floats. -/
def EvalError.IsOverflow : EvalError ArithmeticError → Prop
  | arithmetic error => error.isOverflow
  | _ => False

theorem isFatal_eval_iff {error : EvalError ArithmeticError} : Session.isFatal (.eval error) ↔ error.IsOverflow := by
  cases error <;> simp [Session.isFatal, EvalError.IsOverflow]

/-! ### Rules -/

/-- What is printed for a text without an equals sign under some bindings. -/
inductive Answers (bindings : Bindings Number) (text : String) : String → Prop where
  | unmatched {error : UnmatchedClosing} {message : String}
      (hparse : parse text = .error (.parse (.unmatchedClosing error))) (hmessage : error.message = .ok message) :
      Answers bindings text message
  | failure {expr : Expr} {error : EvalError ArithmeticError} (hparse : parse text = .ok expr)
      (hvalue : expr.eval Number.arithmetic bindings = .error error) (hrange : ¬ error.IsOverflow) :
      Answers bindings text error.message
  | value {expr : Expr} {value : Number} {shown : String} (hparse : parse text = .ok expr)
      (hvalue : expr.eval Number.arithmetic bindings = .ok value) (hshown : value.text = .ok shown) :
      Answers bindings text shown

/-- How a text without an equals sign ends a session with some bindings. -/
inductive Breaks (bindings : Bindings Number) (text : String) : Failure → Prop where
  | longNumeral {length : Nat} (hrun : FirstLongRun (Token.significant text) length) :
      Breaks bindings text (.numeral (.tooLongToRead length))
  | overflow {expr : Expr} {error : EvalError ArithmeticError} (hmatched : ClosingsMatched text)
      (hparse : parse text = .ok expr) (hvalue : expr.eval Number.arithmetic bindings = .error error)
      (hrange : error.IsOverflow) : Breaks bindings text (.eval error)
  | longValue {expr : Expr} {value : Int} (hmatched : ClosingsMatched text) (hparse : parse text = .ok expr)
      (hvalue : expr.eval Number.arithmetic bindings = .ok (.int value))
      (hlong : Numeral.maxDigits < (Nat.toDigits 10 value.natAbs).length) :
      Breaks bindings text (.numeral .tooLongToWrite)

/-- What is printed for a line under some bindings. -/
inductive Replies (bindings : Bindings Number) (line : String) : List String → Prop where
  | bound {c : Char} {value : Float} (h : Session.boundValue? c line = some value) : Replies bindings line []
  | badName {name value : List Char} (hline : line.toList = name ++ '=' :: value) (hname : '=' ∉ name)
      (hbad : (Text.trim Text.isBlankOrSeparator name).length ≠ 1) :
      Replies bindings line ["Variable names are single characters, got " ++
        Text.quoted (String.ofList (Text.trim Text.isBlankOrSeparator name))]
  | badValue {c : Char} {name value : List Char} (hline : line.toList = name ++ '=' :: value) (hname : '=' ∉ name)
      (htrim : Text.trim Text.isBlankOrSeparator name = [c]) (hbad : Binary64.read? value = none) :
      Replies bindings line
        ["Not a number: " ++ Text.quoted (String.ofList (Text.trim Text.isBlankOrSeparator value))]
  | answer {text : String} (hline : '=' ∉ line.toList) (h : Answers bindings line text) :
      Replies bindings line [text]

section Congr

variable {bindings others : Bindings Number} {text : String}

theorem Answers.congr {shown : String} (h : Answers bindings text shown)
    (hsame : ∀ c ∈ text.toList, bindings (String.singleton c) = others (String.singleton c)) :
    Answers others text shown := by
  cases h with
  | unmatched hparse hmessage => exact .unmatched hparse hmessage
  | failure hparse hvalue hrange => exact .failure hparse (eval_congr_of_parse hparse hsame ▸ hvalue) hrange
  | value hparse hvalue hshown => exact .value hparse (eval_congr_of_parse hparse hsame ▸ hvalue) hshown

theorem Breaks.congr {failure : Failure} (h : Breaks bindings text failure)
    (hsame : ∀ c ∈ text.toList, bindings (String.singleton c) = others (String.singleton c)) :
    Breaks others text failure := by
  cases h with
  | longNumeral hrun => exact .longNumeral hrun
  | overflow hmatched hparse hvalue hrange =>
    exact .overflow hmatched hparse (eval_congr_of_parse hparse hsame ▸ hvalue) hrange
  | longValue hmatched hparse hvalue hlong =>
    exact .longValue hmatched hparse (eval_congr_of_parse hparse hsame ▸ hvalue) hlong

theorem Replies.congr {texts : List String} (h : Replies bindings text texts)
    (hsame : '=' ∉ text.toList →
      ∀ c ∈ text.toList, bindings (String.singleton c) = others (String.singleton c)) :
    Replies others text texts := by
  cases h with
  | bound h => exact .bound h
  | badName hline hname hbad => exact .badName hline hname hbad
  | badValue hline hname htrim hbad => exact .badValue hline hname htrim hbad
  | answer hline h => exact .answer hline (h.congr (hsame hline))

end Congr

/-! ### The rules are complete -/

section Parse

variable {text : String} {tokens : List Token}

theorem exists_spell_eq_ok (h : tokenize text = .ok tokens) {part : List Token} (hpart : part ⊆ tokens) :
    ∃ shown, spell part = .ok shown := by
  obtain ⟨lexemes, hwritten⟩ :=
    Token.exists_forall₂_writtenAs fun token htoken => exists_writtenAs_of_tokenize h (hpart htoken)
  exact ⟨_, Token.spell_of_writtenAs hwritten⟩

theorem exists_message_of_nest {error : UnmatchedClosing} (h : tokenize text = .ok tokens)
    (herror : nest tokens = .error error) : ∃ message, error.message = .ok message := by
  obtain ⟨htokens, -, -, -⟩ := of_nest_eq_error herror
  obtain ⟨line, hline⟩ := exists_spell_eq_ok h (List.Subset.refl tokens)
  obtain ⟨before, hbefore⟩ := exists_spell_eq_ok h (List.take_subset error.index tokens)
  rw [UnmatchedClosing.message, htokens, hbefore, hline]
  exact ⟨_, rfl⟩

theorem parse_of_firstLongRun {length : Nat} (hrun : FirstLongRun (Token.significant text) length) :
    parse text = .error (.numeral (.tooLongToRead length)) := by
  rw [parse, tokenize_eq_error_iff.2 ⟨length, hrun, rfl⟩]
  rfl

/-- A text has a numeral that is too long, or a closing bracket that nothing opened, or an expression. -/
theorem parse_cases (text : String) :
    (∃ length, FirstLongRun (Token.significant text) length ∧
        parse text = .error (.numeral (.tooLongToRead length))) ∨
      (∃ error message, parse text = .error (.parse (.unmatchedClosing error)) ∧ error.message = .ok message) ∨
      ∃ expr, ClosingsMatched text ∧ parse text = .ok expr := by
  cases htokens : tokenize text with
  | error error =>
    obtain ⟨length, hrun, rfl⟩ := tokenize_eq_error_iff.1 htokens
    exact .inl ⟨length, hrun, parse_of_firstLongRun hrun⟩
  | ok tokens =>
    cases hnest : nest tokens with
    | error error =>
      obtain ⟨message, hmessage⟩ := exists_message_of_nest htokens hnest
      exact .inr (.inl ⟨error, message, (parse_eq_unmatchedClosing_iff htokens).2 hnest, hmessage⟩)
    | ok items =>
      obtain ⟨expr, hexpr, -⟩ := Expr.exists_ofTokens_eq_ok hnest
      exact .inr (.inr ⟨expr, closingsMatched_of_nest htokens hnest, parse_eq_ok_of_nest htokens hnest hexpr⟩)

end Parse

theorem answers_or_breaks (bindings : Bindings Number) (text : String) :
    (∃ shown, Answers bindings text shown) ∨ ∃ failure, Breaks bindings text failure := by
  rcases parse_cases text with ⟨length, hrun, -⟩ | ⟨error, message, hparse, hmessage⟩ | ⟨expr, hmatched, hparse⟩
  · exact .inr ⟨_, .longNumeral hrun⟩
  · exact .inl ⟨_, .unmatched hparse hmessage⟩
  · cases hvalue : expr.eval Number.arithmetic bindings with
    | error error =>
      by_cases hrange : error.IsOverflow
      · exact .inr ⟨_, .overflow hmatched hparse hvalue hrange⟩
      · exact .inl ⟨_, .failure hparse hvalue hrange⟩
    | ok value =>
      cases hshown : value.text with
      | ok shown => exact .inl ⟨_, .value hparse hvalue hshown⟩
      | error error =>
        cases value with
        | int value =>
          obtain ⟨hlong, -⟩ := Numeral.write_eq_error_iff.1 hshown
          exact .inr ⟨_, .longValue hmatched hparse hvalue hlong⟩
        | float value => simp [Number.text] at hshown

namespace Session

variable {session other : Session} {text line : String}

theorem bindings_singleton (session : Session) (c : Char) :
    session.bindings (String.singleton c) = (session.bound.lookup c).map .float := by
  simp [bindings]

/-! ### The rules are those of a session -/

theorem answer_of_parse_eq_error {failure : Failure} (h : parse text = .error failure) :
    session.answer text =
      if isFatal failure then .error failure else failure.message.mapError .numeral := by
  have hcalculate : calculate session.bindings text = .error failure := by
    rw [calculate, h]
    rfl
  rw [answer, hcalculate]

theorem calculate_of_parse {expr : Expr} (h : parse text = .ok expr) (bindings : Bindings Number) :
    calculate bindings text = (expr.eval Number.arithmetic bindings).mapError .eval := by
  rw [calculate, h]
  rfl

theorem answer_of_eval_eq_ok {expr : Expr} {value : Number} (h : parse text = .ok expr)
    (hvalue : expr.eval Number.arithmetic session.bindings = .ok value) :
    session.answer text = value.text.mapError .numeral := by
  rw [answer, calculate_of_parse h, hvalue]
  rfl

theorem answer_of_eval_eq_error {expr : Expr} {error : EvalError ArithmeticError} (h : parse text = .ok expr)
    (hvalue : expr.eval Number.arithmetic session.bindings = .error error) :
    session.answer text = if isFatal (.eval error) then .error (.eval error) else .ok error.message := by
  rw [answer, calculate_of_parse h, hvalue]
  rfl

theorem answer_of_answers {shown : String} (h : Answers session.bindings text shown) :
    session.answer text = .ok shown := by
  cases h with
  | unmatched hparse hmessage =>
    rw [answer_of_parse_eq_error hparse, isFatal, if_neg (by simp), Failure.message, hmessage]
    rfl
  | failure hparse hvalue hrange =>
    rw [answer_of_eval_eq_error hparse hvalue, if_neg (isFatal_eval_iff.not.2 hrange)]
  | value hparse hvalue hshown =>
    rw [answer_of_eval_eq_ok hparse hvalue, hshown]
    rfl

theorem answer_of_breaks {failure : Failure} (h : Breaks session.bindings text failure) :
    session.answer text = .error failure := by
  cases h with
  | longNumeral hrun => rw [answer_of_parse_eq_error (parse_of_firstLongRun hrun), isFatal, if_pos rfl]
  | overflow hmatched hparse hvalue hrange =>
    rw [answer_of_eval_eq_error hparse hvalue, if_pos (isFatal_eval_iff.2 hrange)]
  | longValue hmatched hparse hvalue hlong =>
    rw [answer_of_eval_eq_ok hparse hvalue, Number.text, Numeral.write_eq_error_iff.2 ⟨hlong, rfl⟩]
    rfl

theorem answer_eq_ok_iff {shown : String} :
    session.answer text = .ok shown ↔ Answers session.bindings text shown := by
  refine ⟨fun h => ?_, answer_of_answers⟩
  rcases answers_or_breaks session.bindings text with ⟨found, hfound⟩ | ⟨failure, hfailure⟩
  · obtain rfl := Except.ok.inj ((answer_of_answers hfound).symm.trans h)
    exact hfound
  · rw [answer_of_breaks hfailure] at h
    simp at h

theorem answer_eq_error_iff {failure : Failure} :
    session.answer text = .error failure ↔ Breaks session.bindings text failure := by
  refine ⟨fun h => ?_, answer_of_breaks⟩
  rcases answers_or_breaks session.bindings text with ⟨shown, hshown⟩ | ⟨found, hfound⟩
  · rw [answer_of_answers hshown] at h
    simp at h
  · obtain rfl := Except.error.inj ((answer_of_breaks hfound).symm.trans h)
    exact hfound

/-! ### Steps -/

theorem step_of_notMem (h : '=' ∉ line.toList) :
    session.step line = (session.answer line).map fun shown => (session, [shown]) := by
  rw [step, Request.ofLine_of_notMem h]
  show (do let shown ← session.answer line; pure (session, [shown])) = _
  cases session.answer line <;> rfl

theorem step_of_equals {name value : List Char} (hline : line.toList = name ++ '=' :: value) (hname : '=' ∉ name) :
    session.step line = .ok (session.tryBind name value) := by
  rw [step, Request.ofLine_of_equals hline hname]

theorem lookup_bind (session : Session) (name c : Char) (value : Float) :
    (session.bind name value).bound.lookup c = if name = c then some value else session.bound.lookup c := by
  rw [bind, List.lookup_cons]
  by_cases h : name = c
  · simp [h]
  · rw [beq_false_of_ne (Ne.symm h), if_neg h]

theorem tryBind_spec (session : Session) {name value : List Char} (hline : line.toList = name ++ '=' :: value)
    (hname : '=' ∉ name) :
    Replies session.bindings line (session.tryBind name value).2 ∧
      ∀ c, (session.tryBind name value).1.bound.lookup c =
        (boundValue? c line).or (session.bound.lookup c) := by
  simp only [boundValue?_of_equals _ hline hname]
  unfold tryBind
  split
  · rename_i c htrim
    split
    · rename_i float hread
      refine ⟨.bound (boundValue?_eq_some_iff.2 ⟨name, value, hline, hname, htrim, hread⟩), fun d => ?_⟩
      rw [lookup_bind, htrim, hread]
      by_cases h : c = d
      · simp [h]
      · simp [h]
    · rename_i hread
      refine ⟨.badValue hline hname htrim hread, fun d => ?_⟩
      rw [hread, ite_self, Option.none_or]
  · rename_i hbad
    have hlength : (Text.trim Text.isBlankOrSeparator name).length ≠ 1 := by
      intro hlength
      obtain ⟨c, hc⟩ := List.length_eq_one_iff.1 hlength
      exact hbad c hc
    refine ⟨.badName hline hname hlength, fun d => ?_⟩
    rw [if_neg (hbad d), Option.none_or]

/-- A line that is read is replied to under the bindings in front of it, and makes its binding if it has one. -/
theorem replies_of_step {next : Session} {texts : List String} (h : session.step line = .ok (next, texts)) :
    Replies session.bindings line texts ∧
      ∀ c, next.bound.lookup c = (boundValue? c line).or (session.bound.lookup c) := by
  rcases exists_equals_or_notMem line with ⟨name, value, hline, hname⟩ | hnone
  · rw [step_of_equals hline hname] at h
    have hspec := tryBind_spec session hline hname
    rwa [Except.ok.inj h] at hspec
  · rw [step_of_notMem hnone] at h
    cases hanswer : session.answer line with
    | error failure =>
      rw [hanswer] at h
      simp [Except.map] at h
    | ok shown =>
      rw [hanswer] at h
      obtain ⟨rfl, rfl⟩ := Prod.mk.inj (Except.ok.inj h)
      refine ⟨.answer hnone (answer_eq_ok_iff.1 hanswer), fun c => ?_⟩
      rw [boundValue?_of_notMem c hnone, Option.none_or]

theorem exists_step_of_replies {texts : List String} (h : Replies session.bindings line texts) :
    ∃ next, session.step line = .ok (next, texts) := by
  cases h with
  | @bound c float h =>
    obtain ⟨name, value, hline, hname, htrim, hread⟩ := boundValue?_eq_some_iff.1 h
    refine ⟨session.bind c float, ?_⟩
    rw [step_of_equals hline hname, tryBind, htrim]
    simp only [hread]
  | badName hline hname hbad =>
    refine ⟨session, ?_⟩
    rw [step_of_equals hline hname, tryBind]
    split
    · rename_i htrim
      simp [htrim] at hbad
    · rfl
  | badValue hline hname htrim hbad =>
    refine ⟨session, ?_⟩
    rw [step_of_equals hline hname, tryBind, htrim]
    simp only [hbad]
  | answer hline h =>
    refine ⟨session, ?_⟩
    rw [step_of_notMem hline, answer_of_answers h]
    rfl

/-- The lines that end a session have no equals sign. -/
theorem step_eq_error_iff {failure : Failure} :
    session.step line = .error failure ↔ '=' ∉ line.toList ∧ Breaks session.bindings line failure := by
  rcases exists_equals_or_notMem line with ⟨name, value, hline, hname⟩ | hnone
  · rw [step_of_equals hline hname]
    simp [hline]
  · rw [step_of_notMem hnone, ← answer_eq_error_iff]
    cases session.answer line <;> simp [Except.map, hnone]

end Session

end Calculator
