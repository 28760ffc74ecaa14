import Calculator.Proofs.History

/-!
# Lines that leave no trace

What is printed for a line depends on the line and on the bindings of its characters, as the earlier lines
left them. So a line can be taken out of a session without a change to the other replies if it binds
nothing, or a name that is not used before another line binds it (`Session.run_eraseIdx`). Which names are
used is told backwards from the end of the lines, as for the live variables of a program.
-/

namespace Calculator

namespace Session

variable {session other next : Session} {lines before after : List String} {line : String} {texts : List String}

/-- A name stands in a line that is evaluated, and no line in front of it binds the name. -/
def Uses (c : Char) : List String → Prop
  | [] => False
  | line :: rest => '=' ∉ line.toList ∧ c ∈ line.toList ∨ boundValue? c line = none ∧ Uses c rest

instance decidableUses (c : Char) : (lines : List String) → Decidable (Uses c lines)
  | [] => inferInstanceAs (Decidable False)
  | line :: rest =>
    have := decidableUses c rest
    inferInstanceAs (Decidable ('=' ∉ line.toList ∧ c ∈ line.toList ∨ boundValue? c line = none ∧ Uses c rest))

/-- A line binds nothing, or a name that is not used before a later line binds it. -/
def Idle (line : String) (after : List String) : Prop :=
  ∀ c, boundValue? c line ≠ none → ¬ Uses c after

/-! ### Sessions that agree on what is used -/

theorem step_congr (hsame : '=' ∉ line.toList → ∀ c ∈ line.toList, session.bound.lookup c = other.bound.lookup c)
    (hstep : session.step line = .ok (next, texts)) : ∃ found, other.step line = .ok (found, texts) := by
  refine exists_step_of_replies ((replies_of_step hstep).1.congr fun hline c hc => ?_)
  rw [bindings_singleton, bindings_singleton, hsame hline c hc]

theorem step_error_congr {failure : Failure}
    (hsame : '=' ∉ line.toList → ∀ c ∈ line.toList, session.bound.lookup c = other.bound.lookup c)
    (hstep : session.step line = .error failure) : other.step line = .error failure := by
  obtain ⟨hline, hbreaks⟩ := step_eq_error_iff.1 hstep
  refine step_eq_error_iff.2 ⟨hline, hbreaks.congr fun c hc => ?_⟩
  rw [bindings_singleton, bindings_singleton, hsame hline c hc]

theorem run_congr (hsame : ∀ c, Uses c lines → session.bound.lookup c = other.bound.lookup c) :
    session.run lines = other.run lines := by
  induction lines generalizing session other with
  | nil => rfl
  | cons line rest ih =>
    have hread : '=' ∉ line.toList → ∀ c ∈ line.toList, session.bound.lookup c = other.bound.lookup c := by
      intro hline c hc
      exact hsame c (.inl ⟨hline, hc⟩)
    cases hstep : session.step line with
    | error failure =>
      rw [run_cons_of_step_eq_error hstep, run_cons_of_step_eq_error (step_error_congr hread hstep)]
    | ok result =>
      obtain ⟨found, hfound⟩ := step_congr hread hstep
      have hrest : result.1.run rest = found.run rest := by
        apply ih
        intro c hc
        rw [(replies_of_step hstep).2, (replies_of_step hfound).2]
        -- A name that the line does not bind is used from this line on.
        cases hbound : boundValue? c line with
        | some value => rfl
        | none => rw [hsame c (.inr ⟨hbound, hc⟩)]
      rw [run_cons_of_step_eq_ok hstep, run_cons_of_step_eq_ok hfound, hrest]

/-! ### Taking out a line -/

/-- An idle line can be taken out of a session, and only its own reply is missing then. -/
theorem run_eraseIdx (hidle : Idle line after) (hrun : (session.run (before ++ line :: after)).failure = none) :
    session.run (before ++ after) =
      ⟨(session.run (before ++ line :: after)).printed.eraseIdx before.length, none⟩ := by
  induction before generalizing session with
  | nil =>
    simp only [List.nil_append] at hrun ⊢
    obtain ⟨next, texts, hstep, hnext⟩ := exists_step_of_run hrun
    have hafter : session.run after = next.run after := by
      apply run_congr
      intro c hc
      rw [(replies_of_step hstep).2, not_ne_iff.1 fun hbound => hidle c hbound hc, Option.none_or]
    rw [run_cons_of_step_eq_ok hstep, hafter, ← hnext]
    rfl
  | cons first before ih =>
    simp only [List.cons_append] at hrun ⊢
    obtain ⟨next, texts, hstep, hnext⟩ := exists_step_of_run hrun
    rw [run_cons_of_step_eq_ok hstep, run_cons_of_step_eq_ok hstep, ih hnext]
    rfl

/-- In a session that is not ended by a line, the reply to a line without an equals sign is settled by this
line and by the bindings that the lines before it leave behind: it is the message about its brackets, or
that of its evaluation under these bindings, or its value. So all other replies are the same without an
idle line. -/
theorem answers_and_eraseIdx_of_run (hrun : (start.run lines).failure = none) :
    (∀ before line after, lines = before ++ line :: after → '=' ∉ line.toList →
        ∃ text, (start.run lines).printed[before.length]? = some [text] ∧
          ∀ other, Answers (boundBy before) line other ↔ other = text) ∧
      ∀ before line after, lines = before ++ line :: after → Idle line after →
        start.run (before ++ after) = ⟨(start.run lines).printed.eraseIdx before.length, none⟩ := by
  have hlines := proceeds_iff.1 (proceeds_of_failure hrun)
  constructor
  · intro before line after hsplit hline
    obtain ⟨texts, htexts, hreply⟩ := (replied_of_run hlines).replies before line after hsplit
    obtain ⟨session, hsession⟩ := exists_remembers before
    rw [← hsession.bindings_eq] at hreply ⊢
    cases hreply with
    | bound h => simp [boundValue?_of_notMem _ hline] at h
    | badName hequals => simp [hequals] at hline
    | badValue hequals => simp [hequals] at hline
    | @answer text _ hanswer =>
      refine ⟨text, htexts, fun other => ⟨fun hother => ?_, ?_⟩⟩
      · exact Except.ok.inj ((answer_of_answers hother).symm.trans (answer_of_answers hanswer))
      · rintro rfl
        exact hanswer
  · rintro before line after rfl hidle
    exact run_eraseIdx hidle hrun

/-- A binding that is made again before it is used can be left out. -/
theorem run_without_first_binding :
    (start.run ["x = 1", "x = 2", "x + 1"]).failure = none ∧
      (∃ text, (start.run ["x = 1", "x = 2", "x + 1"]).printed[2]? = some [text] ∧
        ∀ other, Answers (boundBy ["x = 1", "x = 2"]) "x + 1" other ↔ other = text) ∧
      start.run ["x = 2", "x + 1"] =
        ⟨(start.run ["x = 1", "x = 2", "x + 1"]).printed.eraseIdx 0, none⟩ ∧
      (start.run ["x = 2", "x + 1"]).printed = [[], ["3.0"]] := by
  have hrun : (start.run ["x = 1", "x = 2", "x + 1"]).failure = none := by decide +kernel
  obtain ⟨hanswers, herase⟩ := answers_and_eraseIdx_of_run hrun
  have hidle : Idle "x = 1" ["x = 2", "x + 1"] := by
    intro c hc
    have hx : boundValue? 'x' "x = 1" ≠ none := by decide +kernel
    rw [eq_of_boundValue?_ne_none hc hx]
    decide +kernel
  refine ⟨hrun, ?_, ?_, by decide +kernel⟩
  · exact hanswers ["x = 1", "x = 2"] "x + 1" [] rfl (by decide)
  · exact herase [] "x = 1" ["x = 2", "x + 1"] rfl hidle

end Session

end Calculator
