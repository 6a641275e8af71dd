import BlockCanvas.Program.Statement
import BlockCanvas.Proofs.Program.Action

/-!
# What rules do with a line

`handle_cases`: a rule either passes a line on and does nothing, or takes the line, and then a fault
comes before anything is printed.  From it `step_error` says what the fault of a line is: the fault
of the first rule in the table that accepts the line and does not pass it on.  What a line does is
what the rule that takes it does: `stepWith_of_takenBy`.
-/

namespace BlockCanvas
namespace Statement

open BlockCanvas.Action

/-! ### Handlers -/

/-- The action takes the line, and prints only after the last step that can fault. -/
structure Settles (x : Action Fault Verdict) : Prop where
  taken : Keeps (fun _ => True) (· = .taken) x
  faultsFirst : FaultsFirst x

theorem Settles.of_gives {x : Action Fault Verdict} (h : Gives (· = .taken) x) : Settles x where
  taken := by
    intro b _
    refine ⟨trivial, ?_⟩
    intro v hv
    rcases h b with ⟨_, taken, rfl⟩
    rw [taken] at hv
    cases hv
    rfl
  faultsFirst := h.faultsFirst

theorem settles_fail (fault : Fault) : Settles (fail fault) := ⟨keeps_fail _, faultsFirst_fail _⟩

/-- Steps that print nothing may come first, whether they fault or not. -/
theorem Settles.after {α : Type} {x : Action Fault α} {f : α → Action Fault Verdict}
    (hx : Silent x) (hf : ∀ a, Settles (f a)) : Settles (x >>= f) where
  taken := Keeps.bind (Q := fun _ => True) (fun _ _ => ⟨trivial, fun _ _ => trivial⟩)
    fun a _ => (hf a).taken
  faultsFirst := hx.bind_faultsFirst fun a => (hf a).faultsFirst

/-- Printing a line ends a statement. -/
theorem gives_print_taken (line : Text) :
    Gives (· = .taken) (do Action.print line; return Verdict.taken : Action Fault Verdict) :=
  (gives_print line).bind fun _ _ => gives_pure rfl

theorem settles_print (line : Text) :
    Settles (do Action.print line; return Verdict.taken) := .of_gives (gives_print_taken line)

theorem silent_eval (e : Text) : Silent (eval e) := silent_compute _

theorem silent_listOf (name : Text) : Silent (listOf name) := by
  apply (silent_compute _).bind
  intro v?
  cases v? with
  | none => exact (silent_store _ _).bind fun _ => silent_pure _
  | some v =>
    show Silent (if v.isTruthy then _ else _)
    split
    · exact silent_pure _
    · exact (silent_store _ _).bind fun _ => silent_pure _

theorem assign_cases (line : Text) : assign line = pure .passed ∨ Settles (assign line) := by
  unfold assign
  split
  · exact .inl rfl
  · right
    apply Settles.after (silent_eval _)
    intro v
    apply Settles.after (silent_store _ v)
    intro _
    exact .of_gives (gives_pure rfl)

theorem print_cases (line : Text) : print line = pure .passed ∨ Settles (print line) := by
  unfold print
  split
  · exact .inl rfl
  · right
    apply Settles.after (silent_eval _)
    intro v
    exact settles_print _

theorem input_cases (config : Config) (line : Text) :
    input config line = pure .passed ∨ Settles (input config line) := by
  unfold input
  split
  · exact .inl rfl
  · exact .inr (.of_gives ((gives_print _).bind fun _ _ => gives_print_taken _))

theorem forRange_cases (config : Config) (line : Text) :
    forRange config line = pure .passed ∨ Settles (forRange config line) := by
  unfold forRange
  split
  · exact .inl rfl
  · right
    dsimp only
    split
    · exact settles_fail _
    -- every turn of the loop prints, and none of them faults
    · apply Settles.of_gives
      refine Gives.bind (gives_forEach ?_ _) fun _ _ => gives_pure rfl
      intro i
      exact (gives_store _ _).bind fun _ _ => gives_print _

theorem ifHeader_cases (line : Text) : ifHeader line = pure .passed ∨ Settles (ifHeader line) := by
  unfold ifHeader
  split
  · exact .inl rfl
  · right
    apply Settles.after (silent_compute _)
    intro truth
    cases truth with
    | false => exact .of_gives (gives_pure rfl)
    | true => exact settles_print _

theorem defHeader_cases (line : Text) :
    defHeader line = pure .passed ∨ Settles (defHeader line) := by
  unfold defHeader
  split
  · exact .inl rfl
  · exact .inr (settles_print _)

theorem append_cases (config : Config) (line : Text) :
    append config line = pure .passed ∨ Settles (append config line) := by
  unfold append
  split
  · exact .inl rfl
  · right
    apply Settles.after (silent_listOf _)
    intro list
    apply Settles.after (silent_eval _)
    intro item
    apply Settles.after (silent_compute _)
    intro grown
    apply Settles.after (silent_store _ grown)
    intro _
    exact settles_print _

theorem listLiteral_cases (line : Text) :
    listLiteral line = pure .passed ∨ Settles (listLiteral line) := by
  unfold listLiteral
  split
  · exact .inl rfl
  · right
    apply Settles.after (silent_mapM (fun _ => silent_eval _) _)
    intro items
    exact settles_print _

/-- A rule passes a line on and does nothing, or it takes the line and faults only before it
prints. -/
theorem handle_cases (config : Config) (line : Text) (rule : Rule) :
    handle config line rule = pure .passed ∨ Settles (handle config line rule) := by
  cases rule with
  | assignment => exact assign_cases line
  | print => exact print_cases line
  | input => exact input_cases config line
  | forRange => exact forRange_cases config line
  | ifHeader => exact ifHeader_cases line
  | defHeader => exact defHeader_cases line
  | append => exact append_cases config line
  | listLiteral => exact listLiteral_cases line
  | echo => exact .inr (settles_print _)

theorem handle_of_passed {config : Config} {line : Text} {rule : Rule} {b : Bindings}
    (h : ((handle config line rule).on b).result = .ok .passed) :
    (handle config line rule).on b = ⟨b, [], .ok .passed⟩ := by
  rcases handle_cases config line rule with e | settles
  · rw [e]
    rfl
  · cases (settles.taken b trivial).2 .passed h

theorem handle_of_fault {config : Config} {line : Text} {rule : Rule} {b : Bindings}
    {fault : Fault} (h : ((handle config line rule).on b).result = .error fault) :
    ((handle config line rule).on b).printed = [] := by
  rcases handle_cases config line rule with e | settles
  · rw [e] at h
    cases h
  · exact settles.faultsFirst b fault h

/-! ### Lines -/

/-- A rule leaves a line to the rules after it. -/
def Declines (config : Config) (b : Bindings) (line : Text) (rule : Rule) : Prop :=
  rule.accepts line = true → ((handle config line rule).on b).result = .ok .passed

/-- The line faults under a rule: the rules before it in the table leave the line to it, it accepts
the line, and its handler faults. -/
def FaultsUnder (config : Config) (b : Bindings) (line : Text) (rules : List Rule) (rule : Rule)
    (fault : Fault) : Prop :=
  ∃ before after, rules = before ++ rule :: after ∧
    (∀ r ∈ before, Declines config b line r) ∧ rule.accepts line = true ∧
    ((handle config line rule).on b).result = .error fault

variable {config : Config} {b : Bindings} {line : Text}

/-- A rule that declines takes no part in what the line does. -/
theorem stepWith_of_declines {rule : Rule} {rules : List Rule}
    (h : Declines config b line rule) :
    (stepWith config line (rule :: rules)).on b = (stepWith config line rules).on b := by
  rw [stepWith]
  split
  case isTrue accepted =>
    have passed := handle_of_passed (h accepted)
    have result : (((handle config line rule).mapError (Failure.mk line rule)).on b).result =
        .ok .passed := by
      rw [on_mapError, passed]
      rfl
    rw [on_bind_of_ok result, on_mapError, passed]
    rfl
  case isFalse => rfl

/-- A rule whose handler comes to an end without passing the line on, or faults, is the last one
tried. -/
theorem stepWith_of_not_declines {rule : Rule} (h : ¬ Declines config b line rule)
    (rules : List Rule) :
    rule.accepts line = true ∧ (stepWith config line (rule :: rules)).on b =
      ⟨((handle config line rule).on b).bindings, ((handle config line rule).on b).printed,
        match ((handle config line rule).on b).result with
        | .ok _ => .ok ()
        | .error fault => .error ⟨line, rule, fault⟩⟩ := by
  obtain ⟨accepted, result⟩ := Classical.not_imp.1 h
  refine ⟨accepted, ?_⟩
  rw [stepWith, if_pos accepted]
  cases e : ((handle config line rule).on b).result with
  | error fault =>
    rw [on_bind_of_error (e := ⟨line, rule, fault⟩) (by rw [on_mapError, e]; rfl), on_mapError]
  | ok verdict =>
    have taken : verdict = .taken := by
      cases verdict with
      | taken => rfl
      | passed => exact absurd e result
    rw [on_bind_of_ok (a := verdict) (by rw [on_mapError, e]; rfl), on_mapError, taken]
    simp only [on_pure, List.append_nil]

theorem declines_of_not_accepts {rule : Rule} (h : rule.accepts line = false) :
    Declines config b line rule := by
  intro accepted
  rw [h] at accepted
  cases accepted

theorem stepWith_of_taken {rule : Rule} {b' : Bindings} {out : List Text}
    (accepted : rule.accepts line = true)
    (h : (handle config line rule).on b = ⟨b', out, .ok .taken⟩) (rules : List Rule) :
    (stepWith config line (rule :: rules)).on b = ⟨b', out, .ok ()⟩ := by
  have last : ¬ Declines config b line rule := by
    intro declines
    have passed := declines accepted
    rw [h] at passed
    cases passed
  rw [(stepWith_of_not_declines last rules).2, h]

/-- A line that faults does so under one of the rules, and prints nothing. -/
theorem stepWith_error {failure : Failure} {rules : List Rule}
    (h : ((stepWith config line rules).on b).result = .error failure) :
    failure.line = line ∧ FaultsUnder config b line rules failure.rule failure.fault ∧
      ((stepWith config line rules).on b).printed = [] := by
  induction rules with
  | nil => cases h
  | cons rule rules ih =>
    by_cases declines : Declines config b line rule
    · rw [stepWith_of_declines declines] at h ⊢
      rcases ih h with ⟨rfl, ⟨before, after, rfl, declined, rest⟩, silent⟩
      refine ⟨rfl, ⟨rule :: before, after, rfl, ?_, rest⟩, silent⟩
      exact List.forall_mem_cons.2 ⟨declines, declined⟩
    · rcases stepWith_of_not_declines declines rules with ⟨accepted, all⟩
      rw [all] at h ⊢
      cases e : ((handle config line rule).on b).result with
      | ok verdict =>
        rw [e] at h
        cases h
      | error fault =>
        rw [e] at h
        cases h
        refine ⟨rfl, ⟨[], rules, rfl, ?_, accepted, e⟩, handle_of_fault e⟩
        intro r hr
        cases hr

theorem step_error {failure : Failure} (h : ((step config line).on b).result = .error failure) :
    failure.line = line ∧ FaultsUnder config b line Rule.all failure.rule failure.fault ∧
      ((step config line).on b).printed = [] :=
  stepWith_error h

/-! ### The rule that takes a line -/

/-- A rule takes a line: the rules before it in the table leave the line to it, and it does not
leave the line to the rules after it. -/
def TakenBy (config : Config) (b : Bindings) (line : Text) (rules : List Rule) (rule : Rule) :
    Prop :=
  ∃ before after, rules = before ++ rule :: after ∧
    (∀ r ∈ before, Declines config b line r) ∧ ¬ Declines config b line rule

theorem exists_takenBy_of_mem {rule : Rule} {rules : List Rule} (member : rule ∈ rules)
    (takes : ¬ Declines config b line rule) : ∃ r, TakenBy config b line rules r := by
  induction rules with
  | nil => cases member
  | cons r rules ih =>
    by_cases declines : Declines config b line r
    · have later : rule ∈ rules := by
        rcases List.mem_cons.1 member with rfl | later
        · exact absurd declines takes
        · exact later
      obtain ⟨taker, before, after, rfl, declined, last⟩ := ih later
      exact ⟨taker, r :: before, after, rfl, List.forall_mem_cons.2 ⟨declines, declined⟩, last⟩
    · exact ⟨r, [], rules, rfl, (fun _ h => nomatch h), declines⟩

/-- Some rule takes each line, since the last one takes all that are left to it. -/
theorem exists_takenBy (config : Config) (b : Bindings) (line : Text) :
    ∃ r, TakenBy config b line Rule.all r := by
  have takes : ¬ Declines config b line .echo := by
    intro declines
    cases declines rfl
  exact exists_takenBy_of_mem (by decide) takes

/-- Only one rule takes a line: the others are before it and leave the line, or are not tried. -/
theorem TakenBy.unique {rules : List Rule} {rule other : Rule}
    (h : TakenBy config b line rules rule) (h' : TakenBy config b line rules other) :
    other = rule := by
  obtain ⟨before, after, rfl, declined, last⟩ := h
  obtain ⟨before', after', whole, declined', last'⟩ := h'
  rcases List.append_eq_append_iff.1 whole with ⟨u, rfl, hu⟩ | ⟨u, rfl, hu⟩
  · cases u with
    | nil => exact (List.cons.inj hu).1.symm
    | cons r u =>
      obtain ⟨rfl, -⟩ := List.cons.inj hu
      exact absurd (declined' rule (by simp)) last
  · cases u with
    | nil => exact (List.cons.inj hu).1
    | cons r u =>
      obtain ⟨rfl, -⟩ := List.cons.inj hu
      exact absurd (declined other (by simp)) last'

/-- What a line does is what the rule that takes it does. -/
theorem stepWith_of_takenBy {rule : Rule} {rules : List Rule}
    (taken : TakenBy config b line rules rule) :
    (stepWith config line rules).on b =
      ⟨((handle config line rule).on b).bindings, ((handle config line rule).on b).printed,
        match ((handle config line rule).on b).result with
        | .ok _ => .ok ()
        | .error fault => .error ⟨line, rule, fault⟩⟩ := by
  obtain ⟨before, after, rfl, declined, last⟩ := taken
  induction before with
  | nil => exact (stepWith_of_not_declines last after).2
  | cons r before ih =>
    obtain ⟨first, declined⟩ := List.forall_mem_cons.1 declined
    rw [List.cons_append, stepWith_of_declines first, ih declined]

end Statement
end BlockCanvas
