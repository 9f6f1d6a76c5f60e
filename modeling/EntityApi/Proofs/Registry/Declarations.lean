import EntityApi.Entity.Declaration
import EntityApi.Proofs.Value.Texts

/-! # What is wrong with a declaration

A declaration can be wrong in a few ways only: one for the whole entity, one for what
stands under its attributes, and three for each attribute (`Entity.Fault`,
`Attribute.Fault`), besides names that cannot be written. It is refused for the first
fault that it has, and if it has none it gives an entity (`Entity.ofDeclaration_eq_error`,
`Entity.ofDeclaration_eq_ok`). All of these report a malformed value, and none names a
file. -/
namespace EntityApi

namespace Attribute

/-- What is wrong with the declaration of an attribute. -/
inductive Fault : Value → Failure → Prop
  /-- It is neither a type name nor a table. -/
  | shape {v : Value} (htext : ∀ s, v ≠ .text s) (hmap : ∀ options, v ≠ .map options) :
      Fault v (.attributeShape v.kind)
  | untyped {options : List (Value × Value)} (h : Entries.get? options (.text "type") = none) :
      Fault (.map options) .attributeUntyped
  | unwritable {options : List (Value × Value)} {type : Value}
      (h : Entries.get? options (.text "type") = some type) (htype : type.Unwritable) :
      Fault (.map options) Value.overlong

variable {v : Value} {e : Failure}

theorem ofDeclaration_eq_error : ofDeclaration v = .error e ↔ Fault v e := by
  constructor
  · intro h
    unfold ofDeclaration at h
    split at h
    · cases h
    · split at h
      · rename_i hnone
        cases h
        exact .untyped hnone
      · rename_i type htype
        rcases Result.bind_eq_error.mp h with h | ⟨_, _, h⟩
        · obtain ⟨hun, rfl⟩ := Value.text?_eq_error.mp h
          exact .unwritable htype hun
        · cases h
    · rename_i htext hmap
      cases h
      exact .shape htext hmap
  · intro h
    cases h with
    | shape htext hmap =>
      unfold ofDeclaration
      split
      · exact absurd rfl (htext _)
      · exact absurd rfl (hmap _)
      · rfl
    | untyped h => simp only [ofDeclaration, h, refuse]
    | unwritable h htype =>
      simp only [ofDeclaration, h, Value.text?_eq_error.mpr ⟨htype, rfl⟩]
      rfl

theorem Fault.isMalformed (h : Fault v e) : e.isMalformed = true := by
  cases h <;> rfl

end Attribute

namespace Entity

/-- What is wrong with one of the attributes of the entity. -/
inductive AttributeFault (entity : String) : Value × Value → Failure → Prop
  | unnamed {x : Value × Value} (hname : x.1.Unwritable) : AttributeFault entity x Value.overlong
  | spec {x : Value × Value} {attr : String} {cause : Failure} (hname : x.1.text? = .ok attr)
      (h : Attribute.Fault x.2 cause) : AttributeFault entity x (.inAttribute entity attr cause)

/-- What is wrong with the declaration of an entity. Of its attributes the first one with a fault
counts. -/
inductive Fault : Value → Value → Failure → Prop
  | unnamed {name spec : Value} (hname : name.Unwritable) : Fault name spec Value.overlong
  | shape {name spec : Value} {n : String} (hname : name.text? = .ok n)
      (h : ∀ fields, spec ≠ .map fields) : Fault name spec (.entityShape n spec.kind)
  | attributes {name : Value} {fields : List (Value × Value)} {n : String}
      (hname : name.text? = .ok n) (h : ∀ attrs, attributesOf fields ≠ .map attrs) :
      Fault name (.map fields) (.attributesShape n)
  | first {name : Value} {fields attrs : List (Value × Value)} {n : String} {e : Failure}
      (hname : name.text? = .ok n) (hattrs : attributesOf fields = .map attrs)
      (h : Result.FirstFault (AttributeFault n) attrs e) : Fault name (.map fields) e

/-- The declaration gives the entity: one of its name, with its attributes by their names and with
its table. -/
inductive Gives : Value → Value → Entity → Prop
  | intro {name : Value} {fields attrs : List (Value × Value)} {e : Entity}
      {read : List (String × Attribute)} (hname : name.text? = .ok e.name)
      (hattrs : attributesOf fields = .map attrs)
      (hread : List.Forall₂ (fun x a => x.1.text? = .ok a.1 ∧
        Attribute.ofDeclaration x.2 = .ok a.2) attrs read)
      (hattributes : e.attributes = Entries.ofList read)
      (htable : e.table = Value.field fields "table") : Gives name (.map fields) e

/-! ## Attributes one by one -/

def readAttribute (entity : Value) (x : Value × Value) : Result (String × Attribute) := do
  let attr ← inAttribute entity x.1 (Attribute.ofDeclaration x.2)
  return (← x.1.text?, attr)

theorem readAttributes_eq (entity : Value) (attrs : List (Value × Value))
    (read : List (String × Attribute)) : readAttributes entity attrs read =
      (do return Entries.merge read (← attrs.mapM (readAttribute entity))) := by
  induction attrs generalizing read with
  | nil => rfl
  | cons x attrs ih =>
    rw [readAttributes, List.mapM_cons]
    simp only [readAttribute, ih, bind_assoc, pure_bind, Entries.merge_cons]

variable {name spec entity : Value} {fields attrs : List (Value × Value)} {x : Value × Value}
  {a : String × Attribute} {n : String} {e : Failure}

theorem readAttribute_of_ok {own : Attribute} (h : Attribute.ofDeclaration x.2 = .ok own) :
    readAttribute entity x = (do return (← x.1.text?, own)) := by
  rw [readAttribute, h]
  rfl

/-- The fault of an attribute is reported with the names of the entity and of the attribute. -/
theorem readAttribute_of_fault {cause : Failure} (h : Attribute.Fault x.2 cause) :
    readAttribute entity x =
      (do refuse (.inAttribute (← entity.text?) (← x.1.text?) cause)) := by
  rw [readAttribute, Attribute.ofDeclaration_eq_error.mpr h, inAttribute, if_pos h.isMalformed]
  cases entity.text? <;> cases x.1.text? <;> rfl

theorem readAttribute_eq_ok : readAttribute entity x = .ok a ↔
    x.1.text? = .ok a.1 ∧ Attribute.ofDeclaration x.2 = .ok a.2 := by
  cases hx : Attribute.ofDeclaration x.2 with
  | ok own =>
    rw [readAttribute_of_ok hx]
    obtain ⟨name, read⟩ := a
    cases x.1.text? <;> simp [bind, Except.bind, pure, Except.pure]
  | error cause =>
    rw [readAttribute_of_fault (Attribute.ofDeclaration_eq_error.mp hx)]
    cases entity.text? <;> cases x.1.text? <;> simp [bind, Except.bind, refuse]

theorem readAttribute_eq_error (hn : entity.text? = .ok n) :
    readAttribute entity x = .error e ↔ AttributeFault n x e := by
  cases hx : Attribute.ofDeclaration x.2 with
  | ok own =>
    rw [readAttribute_of_ok hx, Result.bind_eq_error, Value.text?_eq_error]
    constructor
    · rintro (⟨hun, rfl⟩ | ⟨_, _, ⟨⟩⟩)
      exact .unnamed hun
    · rintro (⟨hun⟩ | ⟨_, hfault⟩)
      · exact .inl ⟨hun, rfl⟩
      · rw [Attribute.ofDeclaration_eq_error.mpr hfault] at hx
        cases hx
  | error cause =>
    have hfault := Attribute.ofDeclaration_eq_error.mp hx
    rw [readAttribute_of_fault hfault, hn, Result.ok_bind, Result.bind_eq_error,
      Value.text?_eq_error]
    constructor
    · rintro (⟨hun, rfl⟩ | ⟨attr, hname, ⟨⟩⟩)
      · exact .unnamed hun
      · exact .spec hname hfault
    · rintro (⟨hun⟩ | ⟨hname, hown⟩)
      · exact .inl ⟨hun, rfl⟩
      · rw [Attribute.ofDeclaration_eq_error.mpr hown] at hx
        cases hx
        exact .inr ⟨_, hname, rfl⟩

/-- Where the name of the entity cannot be written, no fault of an attribute is told. -/
theorem readAttribute_refused (hn : entity.Unwritable) :
    Value.RefusedFor Value.overlong (readAttribute entity x) := by
  cases hx : Attribute.ofDeclaration x.2 with
  | ok own =>
    rw [readAttribute_of_ok hx]
    exact (Value.text?_refused _).bind fun _ => .ok _
  | error cause =>
    rw [readAttribute_of_fault (Attribute.ofDeclaration_eq_error.mp hx),
      Value.text?_eq_error.mpr ⟨hn, rfl⟩]
    intro e he
    cases he
    rfl

/-! ## Whole declarations -/

/-- What a declaration is made of: a table with a table of attributes in it, a table with something
else in their place, or no table. -/
theorem spec_cases (spec : Value) :
    (∃ fields attrs, spec = .map fields ∧ attributesOf fields = .map attrs) ∨
    (∃ fields, spec = .map fields ∧ ∀ attrs, attributesOf fields ≠ .map attrs) ∨
    ∀ fields, spec ≠ .map fields := by
  by_cases hspec : ∃ fields, spec = .map fields
  · obtain ⟨fields, rfl⟩ := hspec
    by_cases hattrs : ∃ attrs, attributesOf fields = .map attrs
    · exact hattrs.elim fun attrs h => .inl ⟨fields, attrs, rfl, h⟩
    · exact .inr (.inl ⟨fields, rfl, not_exists.mp hattrs⟩)
  · exact .inr (.inr (not_exists.mp hspec))

theorem ofDeclaration_of_attributes (h : attributesOf fields = .map attrs) :
    ofDeclaration name (.map fields) = (do
      let read ← attrs.mapM (readAttribute name)
      return ⟨← name.text?, Entries.ofList read, Value.field fields "table"⟩) := by
  simp only [ofDeclaration, h, readAttributes_eq, bind_assoc, pure_bind]
  rfl

theorem ofDeclaration_of_shape (h : ∀ fields, spec ≠ .map fields) :
    ofDeclaration name spec = (do refuse (.entityShape (← name.text?) spec.kind)) := by
  cases spec with
  | map fields => exact absurd rfl (h fields)
  | _ => rfl

theorem ofDeclaration_of_attributesShape (h : ∀ attrs, attributesOf fields ≠ .map attrs) :
    ofDeclaration name (.map fields) = (do refuse (.attributesShape (← name.text?))) := by
  cases hattrs : attributesOf fields with
  | map attrs => exact absurd hattrs (h attrs)
  | _ => simp only [ofDeclaration, hattrs]

theorem ofDeclaration_eq_ok {x : Entity} : ofDeclaration name spec = .ok x ↔ Gives name spec x := by
  constructor
  · intro h
    rcases spec_cases spec with ⟨fields, attrs, rfl, hattrs⟩ | ⟨fields, rfl, hattrs⟩ | hspec
    · rw [ofDeclaration_of_attributes hattrs] at h
      obtain ⟨read, hread, h⟩ := Result.bind_eq_ok.mp h
      obtain ⟨n, hname, ⟨⟩⟩ := Result.bind_eq_ok.mp h
      refine .intro hname hattrs ?_ rfl rfl
      exact (Result.mapM_eq_ok.mp hread).imp fun _ _ => readAttribute_eq_ok.mp
    · rw [ofDeclaration_of_attributesShape hattrs] at h
      obtain ⟨n, _, ⟨⟩⟩ := Result.bind_eq_ok.mp h
    · rw [ofDeclaration_of_shape hspec] at h
      obtain ⟨n, _, ⟨⟩⟩ := Result.bind_eq_ok.mp h
  · rintro ⟨hname, hattrs, hread, hattributes, htable⟩
    have hread := Result.mapM_eq_ok.mpr <| hread.imp fun x a h =>
      show readAttribute name x = .ok a from readAttribute_eq_ok.mpr h
    rw [ofDeclaration_of_attributes hattrs, hread, Result.ok_bind, hname, Result.ok_bind,
      ← hattributes, ← htable]
    rfl

/-- Where the name of the entity cannot be written, nothing else is told. -/
theorem ofDeclaration_refused (hname : name.Unwritable) :
    Value.RefusedFor Value.overlong (ofDeclaration name spec) := by
  have htext := Value.text?_eq_error.mpr ⟨hname, rfl⟩
  have hrefused : ∀ {α : Type} (f : String → Result α),
      Value.RefusedFor Value.overlong (name.text? >>= f) := by
    intro α f e h
    rw [htext] at h
    cases h
    rfl
  rcases spec_cases spec with ⟨fields, attrs, rfl, hattrs⟩ | ⟨fields, rfl, hattrs⟩ | hspec
  · rw [ofDeclaration_of_attributes hattrs]
    exact (Value.RefusedFor.mapM (fun _ => readAttribute_refused hname) _).bind fun _ => hrefused _
  · rw [ofDeclaration_of_attributesShape hattrs]
    exact hrefused _
  · rw [ofDeclaration_of_shape hspec]
    exact hrefused _

/-- A declaration is refused for the first thing that is wrong with it. -/
theorem ofDeclaration_eq_error : ofDeclaration name spec = .error e ↔ Fault name spec e := by
  cases htext : name.text? with
  | error e' =>
    obtain ⟨hname, rfl⟩ := Value.text?_eq_error.mp htext
    have hunnamed : ∀ n, name.text? ≠ .ok n := hname
    constructor
    · intro h
      exact ofDeclaration_refused hname e h ▸ .unnamed hname
    · rintro (_ | ⟨hn, _⟩ | ⟨hn, _⟩ | ⟨hn, _, _⟩)
      · cases hr : ofDeclaration name spec with
        | error e => rw [ofDeclaration_refused hname e hr]
        | ok x =>
          cases ofDeclaration_eq_ok.mp hr with
          | intro hn => exact absurd hn (hunnamed _)
      all_goals exact absurd hn (hunnamed _)
  | ok n =>
    constructor
    · intro h
      rcases spec_cases spec with ⟨fields, attrs, rfl, hattrs⟩ | ⟨fields, rfl, hattrs⟩ | hspec
      · rw [ofDeclaration_of_attributes hattrs, htext] at h
        rcases Result.bind_eq_error.mp h with h | ⟨_, _, ⟨⟩⟩
        refine .first htext hattrs ?_
        exact (Result.firstRefused_iff_firstFault fun _ _ => readAttribute_eq_error htext).mp
          (Result.mapM_eq_error.mp h)
      · rw [ofDeclaration_of_attributesShape hattrs, htext] at h
        cases h
        exact .attributes htext hattrs
      · rw [ofDeclaration_of_shape hspec, htext] at h
        cases h
        exact .shape htext hspec
    · intro h
      cases h with
      | unnamed hname => exact absurd htext (hname n)
      | shape hname hspec =>
        rw [ofDeclaration_of_shape hspec, hname]
        rfl
      | attributes hname hattrs =>
        rw [ofDeclaration_of_attributesShape hattrs, hname]
        rfl
      | first hname hattrs hfirst =>
        rw [ofDeclaration_of_attributes hattrs, Result.bind_eq_error]
        exact .inl (Result.mapM_eq_error.mpr ((Result.firstRefused_iff_firstFault fun _ _ =>
          readAttribute_eq_error hname).mpr hfirst))

/-! ## How faults are reported -/

theorem AttributeFault.isMalformed (h : AttributeFault n x e) : e.isMalformed = true := by
  cases h <;> rfl

theorem Fault.isMalformed (h : Fault name spec e) : e.isMalformed = true := by
  cases h with
  | unnamed _ => rfl
  | shape _ _ => rfl
  | attributes _ _ => rfl
  | first _ _ hfirst =>
    obtain ⟨_, _, _, _, _, hx⟩ := hfirst
    exact hx.isMalformed

/-- No file is named yet. -/
theorem Fault.ne_inFile (h : Fault name spec e) (file : String) (cause : Failure) :
    e ≠ .inFile file cause := by
  rintro rfl
  cases h with
  | first _ _ hfirst =>
    obtain ⟨_, _, _, _, _, hx⟩ := hfirst
    cases hx

end Entity

end EntityApi
