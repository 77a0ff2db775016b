import StyleCascade.Proofs.Declared.PropertySet
import StyleCascade.Proofs.Resolve.Reached

namespace StyleCascade

variable {σ : Type} {hosts : Hosts σ} {answers : Answers}

section Rejected

variable {traits : Traits} {basis : Basis}

/-- Whatever is offered to whichever properties, the tables stay sound and list what the hosts
gave. -/
theorem Making.offerAll_sharing (making : Making σ) (sound : making.tables.Sound)
    (files : making.tables.Files traits) (haveTraits : hosts.Have basis.config traits) (held : Held)
    (sets : List PropertySet) (properties : List Property) :
    let done := (making.offerAll hosts basis held sets properties).2
    done.tables.Sound ∧ done.tables.Files traits := by
  induction properties generalizing making with
  | nil => exact ⟨sound, files⟩
  | cons property rest ih =>
    obtain ⟨verdict, state, events, offers, _, run⟩ :=
      making.offer_run sound files haveTraits held property (Basis.declared sets property)
    obtain ⟨nextSound, nextFiles⟩ := takeAny_sharing sound files haveTraits held offers
    rw [offerAll, run]
    exact ih _ nextSound nextFiles

namespace Setting

variable {held : Held} {property : Property} {value : Value} {making : Making σ}

/-- A value that is rejected leaves the draft and the tables as they are. -/
theorem declared_rejected
    (rejects : (declared hosts basis held property value making).1.toOption.isSome = false) :
    (declared hosts basis held property value making).2.draft = making.draft ∧
      (declared hosts basis held property value making).2.tables = making.tables := by
  obtain ⟨between, state, events, _, run⟩ :=
    declared_run basis held property value hosts making
  rw [run] at rejects ⊢
  cases evaluates : Basis.evaluated (hosts.now making.state).script value with
  | error cause => exact ⟨rfl, rfl⟩
  | ok plain =>
    simp only [evaluates] at rejects ⊢
    generalize basis.acceptPlain _ property plain = comes at rejects ⊢
    cases comes with
    | error cause => exact ⟨rfl, rfl⟩
    | ok accepted => cases rejects

/-- For hosts that always give the same answers, a property takes a value or not, whatever draft it
is offered for. -/
theorem declared_accepts (pure : hosts.Pure answers) (sound : making.tables.Sound)
    (files : making.tables.Files (answers.traits basis.config)) (held : Held) (property : Property)
    (value : Value) :
    (declared hosts basis held property value making).1.toOption.isSome =
      basis.accepts answers property value := by
  obtain ⟨between, state, events, _, run⟩ :=
    declared_run basis held property value hosts making
  let evaluated : Making σ := { making with state := between, events := making.events ++ events }
  have images : evaluated.image? hosts held = answers.image? := by
    funext url
    exact evaluated.image?_known sound files (pure.traits basis.config) held url
  rw [run, pure making.state, Basis.accepts, Basis.fault?, Basis.accept]
  cases Basis.evaluated answers.script value with
  | error cause => rfl
  | ok plain =>
    simp only [Except.bind, evaluated, images]
    cases basis.acceptPlain answers.image? property plain <;> rfl

end Setting

end Rejected

namespace Basis

/-- The first value of each property that the property takes. -/
def winningSet (basis : Basis) (answers : Answers) (sets : List PropertySet) : PropertySet :=
  .ofChoice (basis.chosen? answers sets)

/-- The set of the winners is read back as the winners. -/
theorem get?_winningSet (basis : Basis) (answers : Answers) (sets : List PropertySet)
    (property : Property) :
    (basis.winningSet answers sets).get? property = basis.chosen? answers sets property :=
  PropertySet.get?_ofChoice _ property

/-- The set of the winners declares each property once, with its winner, or not at all. -/
theorem declared_winningSet (basis : Basis) (answers : Answers) (sets : List PropertySet)
    (property : Property) :
    declared [basis.winningSet answers sets] property =
      (basis.chosen? answers sets property).toList := by
  rw [← get?_winningSet]
  cases found : (basis.winningSet answers sets).get? property <;> simp [declared, found]

/-- The winner wins again when it stands alone: acceptance looks at the value and not at what was
tried before it. -/
theorem chosen?_winningSet (basis : Basis) (answers : Answers) (sets : List PropertySet)
    (property : Property) :
    basis.chosen? answers [basis.winningSet answers sets] property =
      basis.chosen? answers sets property := by
  rw [chosen?, declared_winningSet]
  cases found : basis.chosen? answers sets property with
  | none => rfl
  | some value => rw [Option.toList_some, List.find?_cons_of_pos (List.find?_some found)]

/-- The winners of the winning set are those of the sets it was made from. -/
theorem winners_winningSet (basis : Basis) (answers : Answers) (sets : List PropertySet) :
    basis.winners answers [basis.winningSet answers sets] = basis.winners answers sets := by
  simp only [winners, winner?, chosen?_winningSet]

theorem rejections_winningSet (basis : Basis) (answers : Answers) (sets : List PropertySet) :
    basis.rejections answers [basis.winningSet answers sets] = [] := by
  refine List.flatMap_eq_nil_iff.mpr fun property _ => ?_
  rw [passedOver, declared_winningSet]
  cases found : basis.chosen? answers sets property with
  | none => rfl
  | some value =>
    have fits := List.find?_some found
    simp [fits]

end Basis

/-- The winners alone decide what sets are resolved to. A property takes a value or not, whatever
was offered before, and a value that is rejected leaves the draft and the tables as they are: of it
only the diagnostics tell. -/
theorem resolve_winningSet {config : Config} {tables : Tables} {held : Held}
    (pure : hosts.Pure answers) (reached : Reached config hosts tables held)
    (sets : List PropertySet) :
    (∀ (parent : Option Record) (state : σ) (before : List PropertySet)
      (properties : List Property) (property : Property) (value : Value),
      let basis : Basis := ⟨config, parent⟩
      let making := ((Making.start hosts basis held ⟨tables, state, []⟩).offerAll hosts basis held
        before properties).2
      let outcome := Setting.declared hosts basis held property value making
      outcome.1.toOption.isSome = basis.accepts answers property value ∧
        (basis.accepts answers property value = false →
          outcome.2.draft = making.draft ∧ outcome.2.tables = making.tables)) ∧
    (∀ (parent : Option Record) (state again : σ),
      let basis : Basis := ⟨config, parent⟩
      let winning := basis.winningSet answers sets
      let first := resolve hosts basis held tables state sets
      let second := resolve hosts basis held tables again [winning]
      (∀ property, winning.get? property =
        (Basis.declared sets property).find? (basis.accepts answers property)) ∧
      second.record = first.record ∧ second.tables = first.tables ∧
      first.events.filterMap Event.diagnostic? = basis.rejections answers sets ∧
      second.events.filterMap Event.diagnostic? = []) ∧
    ∀ parent : Option (Handle Record), (∀ record ∈ parent, record ∈ held) → ∀ state again : σ,
      let basis : Basis := ⟨config, parent.map Handle.value⟩
      let winning := basis.winningSet answers sets
      let first := resolve hosts basis held tables state sets
      let second := resolve hosts basis (first.record :: held) first.tables again [winning]
      second.record = first.record ∧ second.events.filterMap Event.diagnostic? = [] := by
  obtain ⟨sound, _, files⟩ := reached.sharing (pure.traits config)
  refine ⟨?_, ?_, ?_⟩
  · intro parent state before properties property value basis making outcome
    obtain ⟨root, started, events, _, _, _, start, startSound, startFiles⟩ :=
      Making.start_run ⟨tables, state, []⟩ sound files (pure.traits basis.config) held
    obtain ⟨makingSound, makingFiles⟩ :=
      (Making.start hosts basis held ⟨tables, state, []⟩).offerAll_sharing
        (by rw [start]; exact startSound) (by rw [start]; exact startFiles)
        (pure.traits basis.config) held before properties
    have accepts := Setting.declared_accepts pure makingSound makingFiles held property value
    exact ⟨accepts, fun rejected => Setting.declared_rejected (accepts.trans rejected)⟩
  · intro parent state again basis winning first second
    obtain ⟨record, reported⟩ := resolve_eq_share pure basis sound files held state sets
    obtain ⟨againRecord, silent⟩ := resolve_eq_share pure basis sound files held again [winning]
    have same := basis.winners_winningSet answers sets
    obtain ⟨sameRecord, sameTables⟩ := Prod.mk.inj
      (againRecord.trans ((Basis.share_of_winners held tables same).trans record.symm))
    exact ⟨basis.get?_winningSet answers sets, sameRecord, sameTables, reported,
      silent.trans (basis.rejections_winningSet answers sets)⟩
  · intro parent parentHeld state again basis winning first second
    have same := basis.winners_winningSet answers sets
    have behind : Reached config hosts first.tables (first.record :: held) :=
      .resolved reached parent parentHeld state sets first rfl
    obtain ⟨behindSound, _, behindFiles⟩ := behind.sharing (pure.traits config)
    obtain ⟨_, silent⟩ := resolve_eq_share pure basis behindSound behindFiles
      (first.record :: held) again [winning]
    exact ⟨reached.resolve_again pure parentHeld state again same,
      silent.trans (basis.rejections_winningSet answers sets)⟩

/-- A misspelt colour below a record that is held: the weaker colour wins. -/
theorem resolve_winningSet_misspelt_colors :
    let hosts : Hosts Unit := .plain
    let answers : Answers := .plain
    let top := resolve hosts ⟨.screen, none⟩ [] .empty () []
    let basis : Basis := ⟨.screen, some top.record.value⟩
    let sets : List PropertySet :=
      [.ofChoice (fun
        | .color => some (.ident "blur")
        | .borderTopColor => some (.ident "sideways")
        | _ => none),
      .ofChoice (fun
        | .color => some (.ident "red")
        | _ => none),
      .ofChoice (fun
        | .color => some (.ident "green")
        | _ => none)]
    let winning := basis.winningSet answers sets
    let first := resolve hosts basis [top.record] top.tables () sets
    let second := resolve hosts basis [first.record, top.record] first.tables () [winning]
    hosts.Pure answers ∧ Reached .screen hosts top.tables [top.record] ∧
      winning.get? .borderTopColor = none ∧ winning.get? .color = some (.ident "red") ∧
      first.events.filterMap Event.diagnostic? =
        [(.borderTopColor, .color "sideways" (.unknown "sideways")),
          (.color, .color "blur" (.unknown "blur"))] ∧
      second.record = first.record ∧ second.events.filterMap Event.diagnostic? = [] := by
  intro hosts answers top basis sets winning first second
  have pure : hosts.Pure answers := Hosts.pure_ofAnswers answers
  have reached : Reached .screen hosts top.tables [top.record] :=
    .resolved .fresh none (by simp) () [] top rfl
  obtain ⟨-, atOnce, behind⟩ := resolve_winningSet pure reached sets
  obtain ⟨values, _, _, reported, _⟩ := atOnce (some top.record.value) () ()
  obtain ⟨again, silent⟩ := behind (some top.record) (by simp) () ()
  exact ⟨pure, reached, (values .borderTopColor).trans rfl, (values .color).trans rfl,
    reported.trans rfl, again, silent⟩

end StyleCascade
