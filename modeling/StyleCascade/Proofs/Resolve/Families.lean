import StyleCascade.Proofs.Declared.Families
import StyleCascade.Proofs.Resolve.Inherit
import StyleCascade.Proofs.Sheet.Inline

namespace StyleCascade

namespace Family

/-- The families that a list of families comes to. A bare word alone has lost its capitals. -/
def resolved : List Family → String
  | [.bare word _] => Ascii.lower word.text
  | families => ", ".intercalate (families.map name)

/-- All but a single bare word are joined as they stand. -/
theorem resolved_of_ne {families : List Family}
    (other : ∀ word free, families ≠ [.bare word free]) :
    resolved families = ", ".intercalate (families.map name) := by
  unfold resolved
  split
  · next word free => exact absurd rfl (other word free)
  · rfl

/-- The names are as they are written, but for the capitals of a bare word alone. -/
theorem resolved_eq_iff (families : List Family) :
    resolved families = ", ".intercalate (families.map name) ↔
      ∀ word free, families = [.bare word free] → Ascii.lower word.text = word.text := by
  constructor
  · rintro same word free rfl
    exact same.trans String.intercalate_singleton
  · intro all
    by_cases alone : ∃ word free, families = [.bare word free]
    · obtain ⟨word, free, rfl⟩ := alone
      exact (all word free rfl).trans String.intercalate_singleton.symm
    · exact resolved_of_ne fun word free same => alone ⟨word, free, same⟩

variable {families : List Family}

/-- A list of families is read as a word other than `inherit`, as a string or as it is, and what is
kept of it makes the list of families. -/
theorem ofText_source (filled : families ≠ []) :
    ∃ text, (Value.ofText (", ".intercalate (families.map source)) = .ident text ∧
          text ≠ "inherit" ∨
        Value.ofText (", ".intercalate (families.map source)) = .str text ∨
        Value.ofText (", ".intercalate (families.map source)) = .raw text) ∧
      Font.familyList? text = some (resolved families) := by
  match families with
  | [.bare word free] =>
    have noInherit : Ascii.lower word.text ≠ "inherit" := by
      intro same
      rw [Ascii.sameLetters, same] at free
      cases free
    have alone : ", ".intercalate ([bare word free].map source) = word.text :=
      String.intercalate_singleton
    have listed := Font.familyList?_join word.lower []
    rw [FamilyWord.join_nil] at listed
    rw [alone]
    exact ⟨Ascii.lower word.text, Or.inl ⟨word.ofText_text, noInherit⟩, listed⟩
  | [.quoted quote first more] =>
    have alone : ", ".intercalate ([quoted quote first more].map source) =
        Component.quoted quote (first.join more).toList := String.intercalate_singleton
    have name : resolved [quoted quote first more] = first.join more :=
      (resolved_of_ne (by rintro _ _ ⟨⟩)).trans String.intercalate_singleton
    rw [alone, name]
    exact ⟨first.join more, Or.inr (Or.inl (first.ofText_quoted more quote)),
      Font.familyList?_join first more⟩
  | first :: second :: rest =>
    rw [resolved_of_ne (by rintro _ _ ⟨⟩)]
    exact ⟨_, Or.inr (Or.inr (ofText_several first second rest)), Font.familyList?_source filled⟩

/-- A list of families is no script, and it is taken, whatever the hosts answer. -/
theorem accept_source (basis : Basis) (answers : Answers) (filled : families ≠ []) :
    let value := Value.ofText (", ".intercalate (families.map source))
    Basis.evaluated answers.script value = .ok value ∧
      basis.acceptPlain answers.image? .fontFamily value =
        .ok (.font (fun key => { key with family := resolved families })) := by
  intro value
  obtain ⟨text, shape, listed⟩ := ofText_source filled
  have taken (other : value.isWord "inherit" = false)
      (special : Basis.acceptFontFamily value =
        .ok (.font (fun key => { key with family := resolved families }))) :
      basis.acceptPlain answers.image? .fontFamily value =
        .ok (.font (fun key => { key with family := resolved families })) :=
    (if_neg (Bool.eq_false_iff.mp other)).trans special
  replace shape : value = .ident text ∧ text ≠ "inherit" ∨ value = .str text ∨ value = .raw text :=
    shape
  obtain ⟨word, noInherit⟩ | string | raw := shape
  · rw [word] at taken ⊢
    refine ⟨rfl, taken (decide_eq_false fun same => noInherit (Option.some.inj same)) ?_⟩
    rw [Basis.acceptFontFamily, listed]
  · rw [string] at taken ⊢
    refine ⟨rfl, taken rfl ?_⟩
    rw [Basis.acceptFontFamily, listed]
  · rw [raw] at taken ⊢
    refine ⟨rfl, taken rfl ?_⟩
    rw [Basis.acceptFontFamily, listed]

end Family

/-- What is declared last for a property is what its set has for it. -/
theorem DeclaredSets.get?_last {name : String} {property : Property}
    (named : Property.ofName? name = some property) (before : List Declaration) (text : String) :
    (ofList (before ++ [⟨name, text, false⟩])).normal.get? property = some (Value.ofText text) := by
  have expands : Declaration.expand name text = .ok [(property, Value.ofText text)] := by
    rw [Declaration.expand, named]
  have alone : (ofList [⟨name, text, false⟩]).normal =
      PropertySet.empty.insert property (Value.ofText text) := by
    rw [ofList, List.foldl_cons, List.foldl_nil, declare, Declaration.longhands, expands]
    simp only [Bool.false_eq_true, if_false, empty, PropertySet.insertAll, List.foldl_cons,
      List.foldl_nil]
  rw [(layered_append before [⟨name, text, false⟩]).normal.get?_eq, alone,
    PropertySet.sound_empty.get?_insert_self, Option.some_or]

section Reached

variable {σ : Type} {config : Config} {hosts : Hosts σ} {tables : Tables} {held : Held}

/-- A list of families that is declared last is what the record has, whatever else is declared, and
whatever the hosts answer: all names without their quotes, in the letter case that they are written
in. Only a bare word that stands alone has lost its capitals. -/
theorem Reached.resolve_families (reached : Reached config hosts tables held)
    (parent : Option Record) (state : σ) {families : List Family} (filled : families ≠ [])
    (before : List Declaration) (weaker : List PropertySet) :
    let text := ", ".intercalate (families.map Family.source)
    let names := ", ".intercalate (families.map Family.name)
    let declared := DeclaredSets.ofList (before ++ [⟨"font-family", text, false⟩])
    let record := (resolve hosts ⟨config, parent⟩ held tables state
      (declared.normal :: weaker)).record.value
    record.text? .fontFamily = some (Family.resolved families) ∧
      (record.text? .fontFamily = some names ↔
        ∀ word free, families = [.bare word free] → Ascii.lower word.text = word.text) := by
  intro text names declared record
  have named : Property.ofName? "font-family" = some .fontFamily := by decide
  have first : Basis.declared (declared.normal :: weaker) .fontFamily =
      Value.ofText text :: Basis.declared weaker .fontFamily := by
    rw [Basis.declared, List.filterMap_cons, DeclaredSets.get?_last named before text]
    rfl
  obtain ⟨course, leads⟩ :=
    reached.course (hosts.have_any config) parent state (declared.normal :: weaker)
  obtain ⟨taken, -⟩ := leads.taken_first first fun answers _ =>
    Family.accept_source ⟨config, parent⟩ answers filled
  have shown : record.text? .fontFamily = some (Family.resolved families) := by
    refine leads.text?_of_settled (leads.settles reached.backs.1 taken ?_) (by decide) (by simp)
    intro draft tables sound clear
    exact
      { waiting := clear.waiting
        align := clear.align
        text := rfl
        own := fun line => absurd line (by decide) }
  refine ⟨shown, ?_⟩
  rw [shown, Option.some.injEq]
  exact Family.resolved_eq_iff families

/-- The word `Arial`. -/
def FamilyWord.arial : FamilyWord :=
  .ofText "Arial" (by decide) (by decide)

/-- Three families, two of them in quotes. -/
theorem Reached.resolve_families_times :
    let times : FamilyWord := .ofText "Times" (by decide) (by decide)
    let new : FamilyWord := .ofText "New" (by decide) (by decide)
    let families : List Family :=
      [.quoted .single times [new], .bare .arial (by decide), .quoted .double .arial []]
    let text := ", ".intercalate (families.map Family.source)
    let declared := DeclaredSets.ofList ([] ++ [⟨"font-family", text, false⟩])
    let hosts : Hosts Unit := .plain
    let top := resolve hosts ⟨.screen, none⟩ [] .empty () [declared.normal]
    Reached .screen hosts .empty [] ∧ families ≠ [] ∧
      text = "'Times New', Arial, \"Arial\"" ∧
      top.record.value.text? .fontFamily = some "Times New, Arial, Arial" := by
  intro times new families text declared hosts top
  have nothing : Reached .screen hosts .empty [] := .fresh
  have filled : families ≠ [] := List.cons_ne_nil _ _
  obtain ⟨-, shown⟩ := nothing.resolve_families none () filled [] []
  have names : ", ".intercalate (families.map Family.name) = "Times New, Arial, Arial" := by
    decide +kernel
  rw [names] at shown
  have several (word : FamilyWord) (free : Ascii.sameLetters word.text "inherit" = false)
      (alone : families = [.bare word free]) : Ascii.lower word.text = word.text :=
    absurd (congrArg List.length alone) (by decide : 3 ≠ 1)
  refine ⟨nothing, filled, by decide +kernel, ?_⟩
  unfold top declared text
  exact shown.mpr several

/-- One family without quotes: the capital is lost. -/
theorem Reached.resolve_families_arial :
    let family : Family := .bare .arial (by decide)
    let declared := DeclaredSets.ofList [⟨"font-family", family.source, false⟩]
    let hosts : Hosts Unit := .plain
    let top := resolve hosts ⟨.screen, none⟩ [] .empty () [declared.normal]
    family.source = "Arial" ∧ family.name = "Arial" ∧
      top.record.value.text? .fontFamily = some "arial" := by
  decide +kernel

end Reached

end StyleCascade
