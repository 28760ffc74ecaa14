import Calculator.Proofs.Replies

/-!
# Sessions, told from their lines

A session carries its bindings from one line to the next. They can be told from the lines that were read
so far: a name has the value of the latest line that binds it (`Session.boundBy`). So a session
`Proceeds` by the rules for single lines, with the earlier lines in the place of a state, and in no other
way (`Session.proceeds_iff`). What ends a session is then told by its lines as well
(`Session.run_start_ends_iff`).
-/

namespace Calculator

namespace Session

variable {session : Session} {earlier lines before after : List String} {line : String} {transcript : Transcript}
variable {failure : Failure} {texts : List String} {printed : List (List String)}

/-! ### Bindings -/

/-- The value of the latest line that binds a name. -/
def latest? (c : Char) (lines : List String) : Option Float :=
  lines.reverse.findSome? (boundValue? c)

theorem latest?_concat (c : Char) (lines : List String) (line : String) :
    latest? c (lines ++ [line]) = (boundValue? c line).or (latest? c lines) := by
  rw [latest?, List.reverse_concat, List.findSome?_cons]
  cases boundValue? c line <;> rfl

theorem latest?_eq_some_iff {c : Char} {value : Float} :
    latest? c lines = some value ↔
      ∃ before line after, lines = before ++ line :: after ∧ boundValue? c line = some value ∧
        ∀ later ∈ after, boundValue? c later = none := by
  rw [latest?, List.findSome?_eq_some_iff]
  constructor
  · rintro ⟨after, line, before, hlines, hline, hafter⟩
    refine ⟨before.reverse, line, after.reverse, ?_, hline, fun later hlater => ?_⟩
    · rw [← List.reverse_inj, hlines]
      simp
    · exact hafter later (List.mem_reverse.1 hlater)
  · rintro ⟨before, line, after, rfl, hline, hafter⟩
    refine ⟨after.reverse, line, before.reverse, by simp, hline, fun later hlater => ?_⟩
    exact hafter later (List.mem_reverse.1 hlater)

/-- The bindings that lines leave behind. -/
def boundBy (lines : List String) : Bindings Number := fun name =>
  match name.toList with
  | [c] => (latest? c lines).map .float
  | _ => none

/-- The bindings of a session are those that some lines leave behind. -/
def Remembers (session : Session) (lines : List String) : Prop :=
  ∀ c, session.bound.lookup c = latest? c lines

theorem remembers_start : start.Remembers [] := by
  intro c
  rfl

theorem Remembers.bindings_eq (h : session.Remembers lines) : session.bindings = boundBy lines := by
  funext name
  rcases hname : name.toList with _ | ⟨c, _ | ⟨d, rest⟩⟩
  · simp only [bindings, boundBy, hname]
  · have hlookup : session.bound.lookup c = latest? c lines := h c
    simp only [bindings, boundBy, hname, hlookup]
  · simp only [bindings, boundBy, hname]

theorem Remembers.step {next : Session} (h : session.Remembers earlier)
    (hstep : session.step line = .ok (next, texts)) : next.Remembers (earlier ++ [line]) := by
  intro c
  rw [(replies_of_step hstep).2 c, h c, latest?_concat]

theorem exists_remembers (lines : List String) : ∃ session : Session, session.Remembers lines := by
  induction lines using List.reverseRecOn with
  | nil => exact ⟨start, remembers_start⟩
  | append_singleton lines line ih =>
    obtain ⟨session, hsession⟩ := ih
    by_cases h : ∃ c, boundValue? c line ≠ none
    · obtain ⟨c, hc⟩ := h
      obtain ⟨value, hvalue⟩ := Option.ne_none_iff_exists'.1 hc
      refine ⟨session.bind c value, fun d => ?_⟩
      rw [lookup_bind, latest?_concat, hsession d]
      split
      · rename_i hsame
        rw [← hsame, hvalue, Option.some_or]
      · rename_i hother
        rw [not_ne_iff.1 fun hd => hother (eq_of_boundValue?_ne_none hc hd), Option.none_or]
    · refine ⟨session, fun d => ?_⟩
      rw [latest?_concat, hsession d, not_ne_iff.1 fun hd => h ⟨d, hd⟩, Option.none_or]

/-! ### Sessions without a state -/

/-- A line ends the session when these lines were read before it. -/
def EndsAt (earlier : List String) (line : String) (failure : Failure) : Prop :=
  '=' ∉ line.toList ∧ Breaks (boundBy earlier) line failure

/-- How a session goes on from earlier lines: line by line, until the lines end or one of them ends it. -/
inductive Proceeds : List String → List String → Transcript → Prop where
  | done {earlier : List String} : Proceeds earlier [] ⟨[], none⟩
  | read {earlier rest texts : List String} {line : String} {printed : List (List String)} {failure : Option Failure}
      (hreply : Replies (boundBy earlier) line texts)
      (hrest : Proceeds (earlier ++ [line]) rest ⟨printed, failure⟩) :
      Proceeds earlier (line :: rest) ⟨texts :: printed, failure⟩
  | ends {earlier rest : List String} {line : String} {failure : Failure} (hends : EndsAt earlier line failure) :
      Proceeds earlier (line :: rest) ⟨[[]], some failure⟩

theorem run_cons_of_step_eq_ok {next : Session} {rest : List String} (h : session.step line = .ok (next, texts)) :
    session.run (line :: rest) = ⟨texts :: (next.run rest).printed, (next.run rest).failure⟩ := by
  rw [run, h]

theorem run_cons_of_step_eq_error {rest : List String} (h : session.step line = .error failure) :
    session.run (line :: rest) = ⟨[[]], some failure⟩ := by
  rw [run, h]

theorem exists_step_of_run {rest : List String} (h : (session.run (line :: rest)).failure = none) :
    ∃ next texts, session.step line = .ok (next, texts) ∧ (next.run rest).failure = none := by
  cases hstep : session.step line with
  | ok result =>
    rw [run_cons_of_step_eq_ok hstep] at h
    exact ⟨result.1, result.2, rfl, h⟩
  | error failure =>
    rw [run_cons_of_step_eq_error hstep] at h
    simp at h

theorem Remembers.proceeds_run (h : session.Remembers earlier) (lines : List String) :
    Proceeds earlier lines (session.run lines) := by
  induction lines generalizing session earlier with
  | nil => exact .done
  | cons line rest ih =>
    cases hstep : session.step line with
    | ok result =>
      have hreply := (replies_of_step hstep).1
      rw [h.bindings_eq] at hreply
      rw [run_cons_of_step_eq_ok hstep]
      exact .read hreply (ih (h.step hstep))
    | error failure =>
      have hbreaks := step_eq_error_iff.1 hstep
      rw [h.bindings_eq] at hbreaks
      rw [run_cons_of_step_eq_error hstep]
      exact .ends hbreaks

theorem Proceeds.run_eq (h : Proceeds earlier lines transcript) (hsession : session.Remembers earlier) :
    session.run lines = transcript := by
  induction h generalizing session with
  | done => rfl
  | read hreply _ ih =>
    rw [← hsession.bindings_eq] at hreply
    obtain ⟨next, hstep⟩ := exists_step_of_replies hreply
    rw [run_cons_of_step_eq_ok hstep, ih (hsession.step hstep)]
  | ends hends =>
    rw [EndsAt, ← hsession.bindings_eq, ← step_eq_error_iff] at hends
    exact run_cons_of_step_eq_error hends

theorem proceeds_iff : Proceeds [] lines transcript ↔ start.run lines = transcript := by
  constructor
  · intro h
    exact h.run_eq remembers_start
  · rintro rfl
    exact remembers_start.proceeds_run lines

theorem proceeds_of_failure {failure : Option Failure} (h : (start.run lines).failure = failure) :
    Proceeds [] lines ⟨(start.run lines).printed, failure⟩ := by
  rw [proceeds_iff, ← h]

namespace Proceeds

theorem append {rest : List String} {failure : Option Failure} {texts : List (List String)}
    (hbefore : Proceeds earlier before ⟨printed, none⟩) (hrest : Proceeds (earlier ++ before) rest ⟨texts, failure⟩) :
    Proceeds earlier (before ++ rest) ⟨printed ++ texts, failure⟩ := by
  induction before generalizing earlier printed with
  | nil =>
    cases hbefore
    rwa [List.append_nil] at hrest
  | cons first before ih =>
    cases hbefore with
    | read hreply hbefore =>
      rw [List.append_cons] at hrest
      exact .read hreply (ih hbefore hrest)

/-- A session that ends does so at a line before which all lines are read. -/
theorem of_failure (h : Proceeds earlier lines ⟨printed, some failure⟩) :
    ∃ before line after texts, lines = before ++ line :: after ∧ printed = texts ++ [[]] ∧
      EndsAt (earlier ++ before) line failure ∧ Proceeds earlier before ⟨texts, none⟩ := by
  induction lines generalizing earlier printed with
  | nil => cases h
  | cons first rest ih =>
    cases h with
    | read hreply hrest =>
      obtain ⟨before, line, after, texts, rfl, rfl, hends, hbefore⟩ := ih hrest
      rw [← List.append_cons] at hends
      exact ⟨first :: before, line, after, _ :: texts, rfl, rfl, hends, .read hreply hbefore⟩
    | ends hends =>
      refine ⟨[], first, rest, [], rfl, rfl, ?_, .done⟩
      rwa [List.append_nil]

theorem of_append (h : Proceeds earlier (before ++ line :: after) ⟨printed, none⟩) :
    ∃ front texts back, printed = front ++ texts :: back ∧ front.length = before.length ∧
      Proceeds earlier before ⟨front, none⟩ ∧ Replies (boundBy (earlier ++ before)) line texts := by
  induction before generalizing earlier printed with
  | nil =>
    cases h with
    | read hreply hrest =>
      rw [List.append_nil]
      exact ⟨[], _, _, rfl, rfl, .done, hreply⟩
  | cons first before ih =>
    cases h with
    | read hreply hrest =>
      obtain ⟨front, texts, back, rfl, hlength, hbefore, hline⟩ := ih hrest
      rw [← List.append_cons] at hline
      exact ⟨_ :: front, texts, back, rfl, by simp [hlength], .read hreply hbefore, hline⟩

theorem length_eq (h : Proceeds earlier lines ⟨printed, none⟩) : printed.length = lines.length := by
  induction lines generalizing earlier printed with
  | nil =>
    cases h
    rfl
  | cons line rest ih =>
    cases h with
    | read hreply hrest => rw [List.length_cons, List.length_cons, ih hrest]

end Proceeds

/-! ### Where a session ends -/

/-- No line ends the session. -/
def Unbroken (lines : List String) : Prop :=
  ∀ before line after failure, lines = before ++ line :: after → ¬ EndsAt before line failure

/-- Every line has its reply. -/
structure Replied (lines : List String) (printed : List (List String)) : Prop where
  length_eq : printed.length = lines.length
  replies : ∀ before line after, lines = before ++ line :: after →
    ∃ texts, printed[before.length]? = some texts ∧ Replies (boundBy before) line texts

theorem replied_of_run (h : start.run lines = ⟨printed, none⟩) : Replied lines printed := by
  have hproceeds := proceeds_iff.2 h
  refine ⟨hproceeds.length_eq, ?_⟩
  rintro before line after rfl
  obtain ⟨front, texts, back, rfl, hlength, -, hreply⟩ := hproceeds.of_append
  exact ⟨texts, by simp [← hlength], hreply⟩

theorem run_of_endsAt (hbefore : start.run before = ⟨printed, none⟩) (hends : EndsAt before line failure)
    (after : List String) : start.run (before ++ line :: after) = ⟨printed ++ [[]], some failure⟩ :=
  proceeds_iff.1 ((proceeds_iff.2 hbefore).append (.ends hends))

/-- A line that is evaluated is replied to under the bindings of the lines before it, whatever follows. -/
theorem getElem?_printed_of_answers {shown : String} (hbefore : (start.run before).failure = none)
    (hline : '=' ∉ line.toList) (hanswer : Answers (boundBy before) line shown) (after : List String) :
    (start.run (before ++ line :: after)).printed[before.length]? = some [shown] := by
  have hproceeds := proceeds_of_failure hbefore
  obtain ⟨session, hsession⟩ := exists_remembers (before ++ [line])
  have hrest := Proceeds.read (.answer hline hanswer) (hsession.proceeds_run after)
  rw [proceeds_iff.1 (hproceeds.append hrest), ← hproceeds.length_eq]
  simp

theorem unbroken_of_run (h : start.run lines = ⟨printed, none⟩) : Unbroken lines := by
  rintro before line after failure rfl hends
  obtain ⟨front, -, -, -, -, hbefore, -⟩ := (proceeds_iff.2 h).of_append
  have hrun := run_of_endsAt (proceeds_iff.1 hbefore) hends after
  rw [h] at hrun
  simp at hrun

theorem exists_endsAt_of_failure (h : (start.run lines).failure = some failure) :
    ∃ before line after texts, lines = before ++ line :: after ∧ EndsAt before line failure ∧
      start.run before = ⟨texts, none⟩ := by
  obtain ⟨before, line, after, texts, hlines, -, hends, hbefore⟩ := (proceeds_of_failure h).of_failure
  exact ⟨before, line, after, texts, hlines, hends, proceeds_iff.1 hbefore⟩

theorem exists_run_of_unbroken (h : Unbroken lines) : ∃ printed, start.run lines = ⟨printed, none⟩ := by
  cases hfailure : (start.run lines).failure with
  | none => exact ⟨_, proceeds_iff.1 (proceeds_of_failure hfailure)⟩
  | some failure =>
    obtain ⟨before, line, after, texts, hlines, hends, -⟩ := exists_endsAt_of_failure hfailure
    exact absurd hends (h before line after failure hlines)

/-- The look-ups behind an expression never go wrong: not those of the items, nor those of the results. -/
theorem exists_expr_of_closingsMatched {text : String} {tokens : List Token} (htokens : tokenize text = .ok tokens)
    (hmatched : ClosingsMatched text) :
    ∃ items expr, nest tokens = .ok items ∧ Expr.ofPlaces items 0 items.length = .ok expr ∧
      parse text = .ok expr ∧ ∀ bindings, Machine.run Number.arithmetic bindings (.start expr) ≠ .finished [] ∧
        Machine.run Number.arithmetic bindings (.start expr) ≠ .underflow := by
  obtain ⟨items, hnest, -, -⟩ := exists_nest_of_tokenize htokens hmatched
  obtain ⟨expr, hexpr, -⟩ := Expr.exists_ofTokens_eq_ok hnest
  refine ⟨items, expr, hnest, ?_, parse_eq_ok_of_nest htokens hnest hexpr, fun bindings => Machine.run_start_ne⟩
  rw [Expr.ofPlaces_whole, hexpr]
  rfl

/-- A session ends before its lines do exactly if one of them has a numeral that is too long, leaves the
range of the floats or has a value that is too long to be written, under the bindings that the lines in
front of it leave behind. It ends at the first such line, after one reply to every line before. Every
other line is replied to, and whatever is read from it is there when it is looked up. -/
theorem run_start_ends_iff (lines : List String) :
    ((start.run lines).failure ≠ none ↔
        ∃ before line after failure, lines = before ++ line :: after ∧ EndsAt before line failure) ∧
      (∀ failure, (start.run lines).failure = some failure ↔
        ∃ before line after, lines = before ++ line :: after ∧ Unbroken before ∧ EndsAt before line failure) ∧
      (∀ before line after failure, lines = before ++ line :: after → Unbroken before →
        EndsAt before line failure →
          ∃ printed, Replied before printed ∧ start.run lines = ⟨printed ++ [[]], some failure⟩) ∧
      (Unbroken lines → ∃ printed, Replied lines printed ∧ start.run lines = ⟨printed, none⟩) ∧
      ∀ line ∈ lines, ∀ tokens, tokenize line = .ok tokens → ClosingsMatched line →
        ∃ items expr, nest tokens = .ok items ∧ Expr.ofPlaces items 0 items.length = .ok expr ∧
          parse line = .ok expr ∧ ∀ bindings, Machine.run Number.arithmetic bindings (.start expr) ≠ .finished [] ∧
            Machine.run Number.arithmetic bindings (.start expr) ≠ .underflow := by
  refine ⟨⟨?_, ?_⟩, fun failure => ⟨?_, ?_⟩, ?_, ?_, ?_⟩
  · intro h
    obtain ⟨failure, hfailure⟩ := Option.ne_none_iff_exists'.1 h
    obtain ⟨before, line, after, -, hlines, hends, -⟩ := exists_endsAt_of_failure hfailure
    exact ⟨before, line, after, failure, hlines, hends⟩
  · rintro ⟨before, line, after, failure, hlines, hends⟩ hnone
    have hrun := proceeds_iff.1 (proceeds_of_failure hnone)
    exact unbroken_of_run hrun before line after failure hlines hends
  · intro hfailure
    obtain ⟨before, line, after, texts, hlines, hends, hbefore⟩ := exists_endsAt_of_failure hfailure
    exact ⟨before, line, after, hlines, unbroken_of_run hbefore, hends⟩
  · rintro ⟨before, line, after, rfl, hunbroken, hends⟩
    obtain ⟨printed, hbefore⟩ := exists_run_of_unbroken hunbroken
    rw [run_of_endsAt hbefore hends]
  · rintro before line after failure rfl hunbroken hends
    obtain ⟨printed, hbefore⟩ := exists_run_of_unbroken hunbroken
    exact ⟨printed, replied_of_run hbefore, run_of_endsAt hbefore hends after⟩
  · intro hunbroken
    obtain ⟨printed, hrun⟩ := exists_run_of_unbroken hunbroken
    exact ⟨printed, replied_of_run hrun, hrun⟩
  · intro line _ tokens htokens hmatched
    exact exists_expr_of_closingsMatched htokens hmatched

/-- A line that fails is replied to, and leaves the bindings as they are. -/
example : (start.run ["x = 3", "x/4", "x/0", "x)", "(x"]).printed =
    [[], ["0.75"], ["float division by zero"],
      ["Parser error: Unmatched closing bracket\nx)\n ^"], ["3.0"]] := by
  decide +kernel

end Session

end Calculator
