import StyleCascade.Proofs.Resolve.Pure
import Mathlib.Logic.Relation

namespace StyleCascade

variable {σ : Type}

/-- The tables of a context and the records that are held, after any resolving, dropping, sharing
and purging. Resolving is against a root or a record that is held, and it finds the hosts in any
state. -/
inductive Reached (config : Config) (hosts : Hosts σ) : Tables → Held → Prop
  | fresh : Reached config hosts .empty []
  | resolved {tables : Tables} {held : Held} (before : Reached config hosts tables held)
      (parent : Option (Handle Record)) (parentHeld : ∀ record ∈ parent, record ∈ held) (state : σ)
      (sets : List PropertySet) (found : Resolution σ)
      (call : found = resolve hosts ⟨config, parent.map Handle.value⟩ held tables state sets) :
      Reached config hosts found.tables (found.record :: held)
  | holding {tables : Tables} {held left : Held} (before : Reached config hosts tables held)
      (known : left ⊆ held) : Reached config hosts tables left
  | purged {tables : Tables} {held : Held} (before : Reached config hosts tables held) :
      Reached config hosts (tables.purge held) held

/-- What can happen to a context next. -/
inductive Tables.Step (config : Config) (hosts : Hosts σ) : Tables × Held → Tables × Held → Prop
  | resolved {tables : Tables} {held : Held} (parent : Option (Handle Record))
      (parentHeld : ∀ record ∈ parent, record ∈ held) (state : σ) (sets : List PropertySet)
      (found : Resolution σ)
      (call : found = resolve hosts ⟨config, parent.map Handle.value⟩ held tables state sets) :
      Step config hosts (tables, held) (found.tables, found.record :: held)
  | holding {tables : Tables} {held left : Held} (known : left ⊆ held) :
      Step config hosts (tables, held) (tables, left)
  | purged {tables : Tables} {held : Held} :
      Step config hosts (tables, held) (tables.purge held, held)

/-- One call more is reached from the state before. -/
theorem Reached.step {config : Config} {hosts : Hosts σ} {now next : Tables × Held}
    (reached : Reached config hosts now.1 now.2) (step : Tables.Step config hosts now next) :
    Reached config hosts next.1 next.2 := by
  cases step with
  | resolved parent parentHeld state sets found call =>
    exact .resolved reached parent parentHeld state sets found call
  | holding known => exact .holding reached known
  | purged => exact .purged reached

theorem Draft.start_records (basis : Basis) (held : Held) (tables : Tables) (root : Metrics) :
    (Draft.start basis held tables root).2.records = tables.records := by
  unfold Draft.start
  split <;> rfl

theorem Draft.takeAll_records (basis : Basis) (held : Held) (start : Draft × Tables)
    (accepted : List (Property × Accepted)) :
    (Draft.takeAll basis held start accepted).2.records = start.2.records := by
  refine takeAll_induction (motive := fun state => state.2.records = start.2.records) rfl ?_
  intro state property value _ same
  cases value <;> exact same

/-- Of the records in the tables, resolving only looks up and adds its own. -/
theorem Course.Leads.interns {traits : Traits} {basis : Basis} {held : Held} {tables : Tables}
    {sets : List PropertySet} {course : Course} {found : Resolution σ}
    (leads : course.Leads traits basis held tables sets found) :
    ∃ record, tables.records.intern (Handle.alive held) record =
      (found.record, found.tables.records) := by
  have untouched : (course.drafted basis held tables).2.records = tables.records :=
    (Draft.takeAll_records basis held _ course.accepted).trans
      (Draft.start_records basis held tables course.root)
  have given := congrArg (fun shared => (shared.1, shared.2.records)) leads.shared
  rw [← untouched]
  exact ⟨_, given.symm⟩

section Reached

variable {config : Config} {hosts : Hosts σ} {tables : Tables} {held : Held}

/-- A parent that somebody holds has an outline, which the tables can show. -/
theorem Tables.Backs.meets (backs : tables.Backs held) {parent : Option (Handle Record)}
    (parentHeld : ∀ record ∈ parent, record ∈ held) :
    ∃ outline, Draft.Meets tables (parent.map Handle.value) outline := by
  cases parent with
  | none => exact ⟨none, .root⟩
  | some record =>
    obtain ⟨outline, shown⟩ := backs.shown record (parentHeld record rfl)
    exact ⟨some outline, .child shown⟩

theorem values_held {parent : Option (Handle Record)}
    (parentHeld : ∀ record ∈ parent, record ∈ held) :
    ∀ record ∈ parent.map Handle.value, record ∈ held.map Handle.value := by
  intro record inside
  obtain ⟨handle, isParent, rfl⟩ := Option.map_eq_some_iff.mp inside
  exact List.mem_map_of_mem (parentHeld handle isParent)

/-- Whatever was done in a context, its tables are sound, back what is held, and list what the hosts
gave. -/
theorem Reached.sharing {traits : Traits} (haveTraits : hosts.Have config traits)
    (reached : Reached config hosts tables held) :
    tables.Sound ∧ tables.Backs held ∧ tables.Files traits := by
  induction reached with
  | fresh => exact ⟨.empty, .nil _, .empty⟩
  | @resolved tables held _ parent parentHeld state sets found call ih =>
    obtain ⟨sound, backs, files⟩ := ih
    obtain ⟨outline, meets⟩ := backs.meets parentHeld
    obtain ⟨course, leads⟩ := resolve_course ⟨config, parent.map Handle.value⟩ sound files
      haveTraits held state sets
    rw [← call] at leads
    obtain ⟨behind, behindBacks, _⟩ := leads.shows sound backs meets (values_held parentHeld)
    exact ⟨behind, behindBacks, leads.files⟩
  | holding _ known ih => exact ⟨ih.1, ih.2.1.subset known, ih.2.2⟩
  | purged _ ih => exact ⟨ih.1.purge _, ih.2.1.purge ih.1, ih.2.2.purge _⟩

theorem Reached.backs (reached : Reached config hosts tables held) :
    tables.Sound ∧ tables.Backs held :=
  have ⟨sound, backs, _⟩ := reached.sharing (hosts.have_any config)
  ⟨sound, backs⟩

/-- Resolving in a context takes a course. -/
theorem Reached.course {traits : Traits} (haveTraits : hosts.Have config traits)
    (reached : Reached config hosts tables held) (parent : Option Record) (state : σ)
    (sets : List PropertySet) :
    let basis : Basis := ⟨config, parent⟩
    ∃ course : Course, course.Leads traits basis held tables sets
      (resolve hosts basis held tables state sets) := by
  obtain ⟨sound, _, files⟩ := reached.sharing haveTraits
  exact resolve_course ⟨config, parent⟩ sound files haveTraits held state sets

theorem Reached.address_lt (reached : Reached config hosts tables held) {handle : Handle Record}
    (isHeld : handle ∈ held) : handle.address < tables.records.next := by
  obtain ⟨sound, backs⟩ := reached.backs
  exact sound.records.fresh handle (backs.remembered handle isHeld)

section Steps

variable {now next last : Tables × Held}

/-- What is held already keeps its handles. -/
theorem Reached.keeps_of_step (reached : Reached config hosts now.1 now.2)
    (step : Tables.Step config hosts now next) :
    ∀ record ∈ now.2.map Handle.value, now.1.Keeps next.1 record := by
  obtain ⟨sound, backs⟩ := reached.backs
  cases step with
  | resolved parent parentHeld state sets found call =>
    obtain ⟨outline, meets⟩ := backs.meets parentHeld
    obtain ⟨course, leads⟩ :=
      reached.course (hosts.have_any config) (parent.map Handle.value) state sets
    rw [call]
    exact (leads.shows sound backs meets (values_held parentHeld)).2.2.2
  | holding known => exact fun record _ => .refl _ record
  | purged => exact fun record => Tables.keeps_purge

/-- A step takes new addresses for new records, so it brings no old record back. -/
theorem Reached.held_before_step (reached : Reached config hosts now.1 now.2)
    (step : Tables.Step config hosts now next) :
    now.1.records.next ≤ next.1.records.next ∧
      ∀ handle ∈ next.2, handle.address < now.1.records.next → handle ∈ now.2 := by
  obtain ⟨sound, backs⟩ := reached.backs
  cases step with
  | @resolved tables held parent parentHeld state sets found call =>
    obtain ⟨course, leads⟩ :=
      reached.course (hosts.have_any config) (parent.map Handle.value) state sets
    obtain ⟨record, interned⟩ := leads.interns
    rw [← call] at interned
    rcases ValuePool.intern_cases sound.records (Handle.alive held) record with
      ⟨given, isGiven, _, live, run⟩ | ⟨_, run⟩
    all_goals
      obtain ⟨foundEq, recordsEq⟩ := Prod.mk.inj (interned.symm.trans run)
    · refine ⟨by simp only [recordsEq]; omega, fun handle inside _ => ?_⟩
      rcases List.mem_cons.mp inside with rfl | old
      · rw [foundEq]
        exact backs.mem_of_alive sound isGiven live
      · exact old
    · refine ⟨by simp only [recordsEq]; omega, fun handle inside older => ?_⟩
      rcases List.mem_cons.mp inside with rfl | old
      · rw [foundEq] at older
        exact absurd older (Nat.lt_irrefl _)
      · exact old
  | holding known => exact ⟨Nat.le_refl _, fun handle inside _ => known inside⟩
  | purged => exact ⟨Nat.le_refl _, fun handle inside _ => inside⟩

/-- What is held at both ends of some time has kept its handles. -/
theorem Reached.keeps_of_steps (reached : Reached config hosts now.1 now.2)
    (steps : Relation.ReflTransGen (Tables.Step config hosts) now last) :
    Reached config hosts last.1 last.2 ∧ now.1.records.next ≤ last.1.records.next ∧
      ∀ handle ∈ now.2, handle ∈ last.2 → now.1.Keeps last.1 handle.value := by
  induction steps with
  | refl => exact ⟨reached, Nat.le_refl _, fun handle _ _ => .refl _ _⟩
  | @tail middle last _ step ih =>
    obtain ⟨middleReached, grown, kept⟩ := ih
    obtain ⟨grows, heldBefore⟩ := middleReached.held_before_step step
    refine ⟨middleReached.step step, Nat.le_trans grown grows, ?_⟩
    intro handle isHeld stillHeld
    have older := Nat.lt_of_lt_of_le (reached.address_lt isHeld) grown
    have heldBetween := heldBefore handle stillHeld older
    exact (kept handle isHeld heldBetween).trans
      (middleReached.keeps_of_step step _ (List.mem_map_of_mem heldBetween))

/-- For hosts that always give the same answers, a call with the same winners gives the record of an
earlier call again, whatever happened since, as long as this record and the parent are held. -/
theorem Reached.resolve_later {answers : Answers} (pure : hosts.Pure answers)
    (reached : Reached config hosts tables held) {parent : Option (Handle Record)}
    (parentHeld : ∀ record ∈ parent, record ∈ held) {sets other : List PropertySet}
    {later : Tables} {left : Held} (state again : σ) :
    let basis : Basis := ⟨config, parent.map Handle.value⟩
    let first := resolve hosts basis held tables state sets
    basis.winners answers other = basis.winners answers sets →
      Relation.ReflTransGen (Tables.Step config hosts) (first.tables, first.record :: held)
          (later, left) →
        first.record ∈ left → (∀ record ∈ parent, record ∈ left) →
          (resolve hosts basis left later again other).record = first.record := by
  intro basis first same steps stillHeld parentStillHeld
  obtain ⟨sound, backs, files⟩ := reached.sharing (pure.traits config)
  obtain ⟨outline, meets⟩ := backs.meets parentHeld
  obtain ⟨firstSound, _, _, shown, keeps⟩ := resolve_shows pure basis sound backs files
    meets (values_held parentHeld) state sets
  have behind : Reached config hosts first.tables (first.record :: held) :=
    .resolved reached parent parentHeld state sets first rfl
  obtain ⟨lastReached, _, kept⟩ := behind.keeps_of_steps steps
  obtain ⟨lastSound, lastBacks, lastFiles⟩ := lastReached.sharing (pure.traits config)
  have meetsLast : Draft.Meets later basis.parent outline := by
    have meetsBehind : Draft.Meets first.tables basis.parent outline :=
      meets.of_keeps firstSound fun record inside =>
        keeps record (values_held parentHeld record inside)
    refine meetsBehind.of_keeps lastSound fun record inside => ?_
    obtain ⟨handle, isParent, rfl⟩ := Option.map_eq_some_iff.mp inside
    exact kept handle (List.mem_cons_of_mem _ (parentHeld handle isParent))
      (parentStillHeld handle isParent)
  obtain ⟨againSound, againBacks, _, againShown, againKeeps⟩ := resolve_shows pure basis
    lastSound lastBacks lastFiles meetsLast (values_held parentStillHeld) again other
  have stillShown := (shown.of_keeps lastSound
    (kept first.record List.mem_cons_self stillHeld)).of_keeps againSound
      (againKeeps _ (List.mem_map_of_mem stillHeld))
  -- both records are shown for the outline that the winners make
  have outlines : Basis.outline { basis with parent := outline } answers other =
      Basis.outline { basis with parent := outline } answers sets := by
    have sameFont : basis.SameFont { basis with parent := outline } := meets.sameFont
    rw [Basis.outline, Basis.outline, ← sameFont.winners, ← sameFont.winners, same]
  rw [outlines] at againShown
  exact againBacks.unique List.mem_cons_self (List.mem_cons_of_mem _ stillHeld) againShown
    stillShown

end Steps

/-- As long as the record of a call is held, a call with the same winners gives it again. -/
theorem Reached.resolve_again {answers : Answers} (pure : hosts.Pure answers)
    (reached : Reached config hosts tables held) {parent : Option (Handle Record)}
    (parentHeld : ∀ record ∈ parent, record ∈ held) {sets other : List PropertySet}
    (state again : σ) :
    let basis : Basis := ⟨config, parent.map Handle.value⟩
    let first := resolve hosts basis held tables state sets
    basis.winners answers other = basis.winners answers sets →
      (resolve hosts basis (first.record :: held) first.tables again other).record =
        first.record := by
  intro basis first same
  have noSteps : Relation.ReflTransGen (Tables.Step config hosts)
    (first.tables, first.record :: held) (first.tables, first.record :: held) := .refl
  exact reached.resolve_later pure parentHeld state again same noSteps List.mem_cons_self
    fun record isParent => List.mem_cons_of_mem _ (parentHeld record isParent)

end Reached

end StyleCascade
