import StyleCascade.Proofs.Resolve.Course

namespace StyleCascade

variable {σ : Type} {traits : Traits} {basis : Basis} {held : Held} {tables : Tables}
  {sets : List PropertySet} {course : Course} {found : Resolution σ} {property : Property}

/-- The value that a property took, without scripts: the first one that it accepted. -/
def Resolution.taken? (found : Resolution σ) (property : Property) : Option Value :=
  found.taken.lookup property

/-- What a property took is a word if it is read as one. -/
theorem Resolution.taken?_of_word {word : String}
    (spelt : (found.taken? property).bind Value.word? = some word) :
    found.taken? property = some (.ident word) := by
  obtain ⟨value, taken, isWord⟩ := Option.bind_eq_some_iff.mp spelt
  rw [taken]
  cases value with
  | ident other =>
    cases isWord
    rfl
  | _ => cases isWord

namespace Basis.Offers

variable {values : List Value} {value plain : Value} {accepted : Accepted} {verdict : Verdict}

/-- A value that comes first is taken if it is accepted for all answers. -/
theorem taken_first (offers : basis.Offers traits property (value :: values) verdict)
    (takes : ∀ answers, traits.Allows answers → evaluated answers.script value = .ok plain ∧
      basis.acceptPlain answers.image? property plain = .ok accepted) :
    verdict.taken = some (plain, accepted) := by
  cases offers with
  | taken allowed evaluates accepts =>
    obtain ⟨gives, comes⟩ := takes _ allowed
    cases evaluates.symm.trans gives
    cases accepts.symm.trans comes
    rfl
  | @rejected _ _ answers cause _ allowed rejects =>
    obtain ⟨gives, comes⟩ := takes _ allowed
    cases rejects.symm.trans ((accept_of_evaluated gives basis property).trans comes)

/-- Values that are rejected for all answers are not taken. -/
theorem not_taken (offers : basis.Offers traits property values verdict)
    (rejects : ∀ value ∈ values, ∀ answers, traits.Allows answers →
      ∃ cause, basis.accept answers property value = .error cause) : verdict.taken = Option.none := by
  induction offers with
  | none => rfl
  | @taken value rest answers plain accepted allowed evaluates accepts =>
    obtain ⟨cause, rejected⟩ := rejects value List.mem_cons_self answers allowed
    cases rejected.symm.trans ((accept_of_evaluated evaluates basis property).trans accepts)
  | rejected _ _ _ ih =>
    exact ih fun value inside => rejects value (List.mem_cons_of_mem _ inside)

end Basis.Offers

namespace Verdict

variable {verdict : Property → Verdict} {plain : Value} {accepted : Accepted}

/-- The values taken hold one entry for each property that was asked and took a value, and none for
the others. -/
theorem lookup_values (verdict : Property → Verdict) (property : Property)
    (properties : List Property) :
    (values verdict properties).lookup property =
      if property ∈ properties then (verdict property).taken.map Prod.fst else none := by
  induction properties with
  | nil => rfl
  | cons other rest ih =>
    rw [values_cons]
    by_cases same : property = other
    · subst same
      rw [if_pos List.mem_cons_self]
      cases taken : (verdict property).taken with
      | none => simp [ih, taken]
      | some found => simp
    · have apart : (property == other) = false := beq_eq_false_iff_ne.mpr same
      cases taken : (verdict other).taken with
      | none => simp [ih, same]
      | some found => simp [List.lookup_cons, apart, ih, same]

/-- What a property takes comes once among what is accepted. -/
theorem accepted_split (taken : (verdict property).taken = some (plain, accepted)) :
    ∃ before after,
      Verdict.accepted verdict Property.all = before ++ (property, accepted) :: after ∧
        (∀ other ∈ before, property ≠ other.1) ∧ ∀ other ∈ after, property ≠ other.1 := by
  obtain ⟨front, back, split⟩ := List.append_of_mem (Property.mem_all property)
  have once : property ∉ front ++ back ∧ (front ++ back).Nodup :=
    List.nodup_cons.mp (List.nodup_middle.mp (split ▸ Property.nodup_all))
  have apart {properties : List Property} (others : property ∉ properties) :
      ∀ other ∈ Verdict.accepted verdict properties, property ≠ other.1 := by
    rintro other inside rfl
    obtain ⟨name, isName, found⟩ := List.mem_filterMap.mp inside
    obtain ⟨accepted, -, rfl⟩ := Option.map_eq_some_iff.mp found
    exact others isName
  refine ⟨Verdict.accepted verdict front, Verdict.accepted verdict back, ?_,
    apart (fun mem => once.1 (List.mem_append_left back mem)),
    apart (fun mem => once.1 (List.mem_append_right front mem))⟩
  rw [split, Verdict.accepted, List.filterMap_append]
  refine congrArg (Verdict.accepted verdict front ++ ·) ?_
  show Verdict.accepted verdict (property :: back) = _
  rw [accepted_cons, taken]
  rfl

end Verdict

namespace Course.Leads

/-- What a property took is what its verdict says. -/
theorem taken?_eq (leads : course.Leads traits basis held tables sets found) (property : Property) :
    found.taken? property = (course.verdict property).taken.map Prod.fst := by
  rw [Resolution.taken?, leads.taken, Verdict.lookup_values, if_pos property.mem_all]

/-- A property takes the first value that is declared for it if it accepts it for all answers. -/
theorem taken_first (leads : course.Leads traits basis held tables sets found) {value plain : Value}
    {rest : List Value} {accepted : Accepted}
    (declared : Basis.declared sets property = value :: rest)
    (takes : ∀ answers, traits.Allows answers → Basis.evaluated answers.script value = .ok plain ∧
      basis.acceptPlain answers.image? property plain = .ok accepted) :
    (course.verdict property).taken = some (plain, accepted) ∧
      found.taken? property = some plain := by
  have offers := leads.offers property
  rw [declared] at offers
  have taken := offers.taken_first takes
  exact ⟨taken, by rw [leads.taken?_eq, taken]; rfl⟩

/-- A property takes nothing if it rejects, for all answers, whatever is declared for it. -/
theorem not_taken (leads : course.Leads traits basis held tables sets found)
    (rejects : ∀ value ∈ Basis.declared sets property, ∀ answers, traits.Allows answers →
      ∃ cause, basis.accept answers property value = .error cause) :
    found.taken? property = none := by
  rw [leads.taken?_eq, (leads.offers property).not_taken rejects]
  rfl

/-- A value that is taken was accepted, for answers that can be met with. -/
theorem accepts_of_taken (leads : course.Leads traits basis held tables sets found) {plain : Value}
    (taken : found.taken? property = some plain) :
    ∃ answers accepted, traits.Allows answers ∧
      basis.acceptPlain answers.image? property plain = .ok accepted ∧
      (course.verdict property).taken = some (plain, accepted) := by
  rw [leads.taken?_eq] at taken
  obtain ⟨⟨value, accepted⟩, verdict, rfl⟩ := Option.map_eq_some_iff.mp taken
  obtain ⟨answers, allowed, accepts⟩ := (leads.offers property).accepts verdict
  exact ⟨answers, accepted, allowed, accepts, verdict⟩

/-- A property that takes nothing is not among what is accepted. -/
theorem apart_of_not_taken (leads : course.Leads traits basis held tables sets found)
    (untaken : found.taken? property = none) :
    ∀ other ∈ course.accepted, property ≠ other.1 := by
  rintro other inside rfl
  obtain ⟨name, -, takes⟩ := List.mem_filterMap.mp inside
  obtain ⟨taken, verdict, rfl⟩ := Option.map_eq_some_iff.mp takes
  rw [leads.taken?_eq, verdict] at untaken
  cases untaken

end Course.Leads

end StyleCascade
