import EntityApi.Proofs.Text.Codes
import EntityApi.Schema.Document

/-! # What the texts of a schema tell

Each text of a schema can be taken apart again by the marks in it: a typed name by
its colon and its bang (`typed_inj`), the arguments of a signature by their commas
(`Signature.text_inj`), a document by the ends of its lines and a block by its
closing brace (`Document.blocks_of_render`). What the parts are is told by their
places, never by their names, so that it does not matter if some of these clash. -/
namespace EntityApi

namespace Schema

/-! ## Names -/

/-- A name of the schema language. -/
def IsName (s : String) : Prop :=
  ∃ c rest, s.toList = c :: rest ∧ isNameStart c = true ∧ rest.all isNameChar = true

theorem IsName.not_mem {s : String} (h : IsName s) {c : Char} (hc : isNameChar c = false) :
    c ∉ s.toList := by
  obtain ⟨first, rest, hs, hfirst, hrest⟩ := h
  intro hm
  rw [hs] at hm
  rcases List.mem_cons.mp hm with rfl | hm
  · simp [isNameChar, hfirst] at hc
  · rw [List.all_eq_true.mp hrest c hm] at hc
    cases hc

theorem isName_scalar (s : Scalar) : IsName s.name := by
  cases s <;> exact ⟨_, _, rfl, by decide, by decide⟩

theorem isName_implicitKey : IsName Model.implicitKey := ⟨_, _, rfl, by decide, by decide⟩

/-! ## Typed names -/

theorem typed_inj {name name' type type' : String} {required required' : Bool} (hn : IsName name)
    (hn' : IsName name') (ht : IsName type) (ht' : IsName type')
    (h : typed name type required = typed name' type' required') :
    name = name' ∧ type = type' ∧ required = required' := by
  have hmark : '!' ∉ type.toList := ht.not_mem (by decide)
  have hmark' : '!' ∉ type'.toList := ht'.not_mem (by decide)
  unfold typed at h
  rw [← String.toList_inj] at h
  simp only [String.toList_append, List.append_assoc] at h
  obtain ⟨hname, hrest⟩ := Text.Code.eq_of_append_cons (hn.not_mem (by decide))
    (hn'.not_mem (by decide)) h
  have htype := (List.cons.inj hrest).2
  refine ⟨String.toList_inj.mp hname, ?_⟩
  cases required <;> cases required'
  · exact ⟨String.toList_inj.mp (by simpa using htype), rfl⟩
  · exact absurd (by simp [show type.toList = _ from by simpa using htype]) hmark
  · exact absurd (by simp [show type'.toList = _ from by simpa using htype.symm]) hmark'
  · exact ⟨String.toList_inj.mp (by simpa using htype), rfl⟩

theorem mem_typed {name type : String} {required : Bool} {c : Char}
    (h : c ∈ (typed name type required).toList) :
    c ∈ name.toList ∨ c ∈ type.toList ∨ c ∈ [':', ' ', '!'] := by
  unfold typed at h
  cases required <;> simp at h ⊢ <;> tauto

theorem scalar_name_inj {s s' : Scalar} (h : s.name = s'.name) : s = s' := by
  cases s <;> cases s' <;> first | rfl | (revert h; decide)

theorem declared_inj {f f' : Field} (hf : IsName f.name) (hf' : IsName f'.name)
    (h : f.declared = f'.declared) :
    f.name = f'.name ∧ f.scalar = f'.scalar ∧ f.required = f'.required := by
  obtain ⟨hname, hscalar, hrequired⟩ :=
    typed_inj hf hf' (isName_scalar f.scalar) (isName_scalar f'.scalar) h
  exact ⟨hname, scalar_name_inj hscalar, hrequired⟩

/-! ## Signatures -/

/-- The name and the type of the argument are names. -/
structure Argument.Plain (a : Argument) : Prop where
  name : IsName a.name
  type : IsName a.type

theorem Argument.plain_ofField {f : Field} (h : IsName f.name) (required : Bool) :
    (ofField f required).Plain := ⟨h, isName_scalar f.scalar⟩

/-- A plain argument with what parts it from the next one. -/
theorem code_argument :
    Text.Code Argument.Plain fun a => a.text.toList ++ ", ".toList := by
  refine (Text.Code.ended ',' [' ']).comp (g := fun a : Argument => a.text.toList) ?_ ?_
  · intro a ha hm
    rcases mem_typed hm with hm | hm | hm
    · exact ha.name.not_mem (by decide) hm
    · exact ha.type.not_mem (by decide) hm
    · revert hm
      decide
  · rintro ⟨name, type, required⟩ ⟨name', type', required'⟩ ha ha' h
    obtain ⟨rfl, rfl, rfl⟩ := typed_inj ha.name ha'.name ha.type ha'.type (String.toList_inj.mp h)
    rfl

/-- The text of a signature whose name and result are known tells its arguments. -/
theorem Signature.text_inj {s s' : Signature} (hname : s.name = s'.name)
    (hresult : s.result = s'.result) (hs : ∀ a ∈ s.arguments, a.Plain)
    (hs' : ∀ a ∈ s'.arguments, a.Plain) (h : s.text = s'.text) : s.arguments = s'.arguments := by
  unfold text at h
  rw [hname, hresult, ← String.toList_inj] at h
  by_cases hnil : s.arguments = []
  · by_cases hnil' : s'.arguments = []
    · rw [hnil, hnil']
    · simp [hnil, hnil'] at h
  · by_cases hnil' : s'.arguments = []
    · simp [hnil, hnil'] at h
    · have hlists : (", ".intercalate (s.arguments.map Argument.text)).toList =
          (", ".intercalate (s'.arguments.map Argument.text)).toList := by
        simpa [hnil, hnil'] using h
      have hended := congrArg (· ++ ", ".toList) hlists
      simp only [← String.toList_append] at hended
      rw [Text.intercalate_append (by simpa using hnil),
        Text.intercalate_append (by simpa using hnil'), List.flatMap_map, List.flatMap_map] at hended
      exact code_argument.flatMap_inj hs hs' hended

/-! ## Lines and blocks -/

/-- A line with its end. -/
def lineText (line : String) : List Char := line.toList ++ "\n".toList

def OneLine (s : String) : Prop := '\n' ∉ s.toList

instance (s : String) : Decidable (OneLine s) := inferInstanceAs (Decidable ('\n' ∉ s.toList))

theorem code_line : Text.Code OneLine lineText :=
  (Text.Code.ended '\n' []).comp (fun _ h => h) fun _ _ _ _ => String.toList_inj.mp

/-- The lines between the head of a block and its closing brace. -/
def bodyLines (lines : List String) : List String :=
  if lines.isEmpty then [""] else lines.map ("  " ++ ·)

/-- The lines of a block by its name and what stands in it, with the empty line after it. -/
def blockLines (b : String × List String) : List String :=
  ("type " ++ b.1 ++ " \x7b") :: bodyLines b.2 ++ ["\x7d", ""]

theorem lineText_intercalate {texts : List String} (h : texts ≠ []) :
    lineText ("\n".intercalate texts) = texts.flatMap lineText :=
  String.toList_append.symm.trans (Text.intercalate_append h)

theorem lineText_block (b : String × List String) :
    lineText (block b.1 b.2) = (blockLines b).flatMap lineText := by
  have hbody : lineText ("\n".intercalate (b.2.map ("  " ++ ·))) =
      (bodyLines b.2).flatMap lineText := by
    unfold bodyLines
    by_cases hnil : b.2 = []
    · simp [hnil, lineText]
    · rw [lineText_intercalate (by simpa using hnil)]
      simp only [List.isEmpty_iff, hnil, if_false]
  simp only [blockLines, List.flatMap_append, List.flatMap_cons, ← hbody]
  simp [block, lineText]

theorem indent_inj {line line' : String} (h : "  " ++ line = "  " ++ line') : line = line' := by
  rw [← String.toList_inj] at h ⊢
  simpa using h

theorem bodyLines_inj {lines lines' : List String} (h : bodyLines lines = bodyLines lines') :
    lines = lines' := by
  have hindented : ∀ line : String, "" ≠ "  " ++ line := by
    intro line he
    have htexts := String.toList_inj.mpr he
    simp at htexts
  unfold bodyLines at h
  cases lines with
  | nil =>
    cases lines' with
    | nil => rfl
    | cons line' lines' => exact absurd (List.cons.inj h).1 (hindented line')
  | cons line lines =>
    cases lines' with
    | nil => exact absurd (List.cons.inj h).1.symm (hindented line)
    | cons line' lines' =>
      exact List.map_injective_iff.mpr (fun _ _ => indent_inj) (by simpa using h)

/-- A block ends at its closing brace: no other line is one. -/
theorem code_block : Text.Code (fun _ => True) blockLines := by
  refine (Text.Code.ended "\x7d" [""]).comp
    (g := fun b : String × List String => ("type " ++ b.1 ++ " \x7b") :: bodyLines b.2) ?_ ?_
  · intro b _ hm
    rcases List.mem_cons.mp hm with hhead | hbody
    · rw [← String.toList_inj] at hhead
      simp at hhead
    · unfold bodyLines at hbody
      split at hbody
      · simp at hbody
      · obtain ⟨line, _, hline⟩ := List.mem_map.mp hbody
        rw [← String.toList_inj] at hline
        simp at hline
  · intro b b' _ _ h
    obtain ⟨hhead, hbody⟩ := List.cons.inj h
    rw [← String.toList_inj] at hhead
    exact Prod.ext (String.toList_inj.mp (by simpa using hhead)) (bodyLines_inj hbody)

/-! ## Documents -/

/-- The block of an entity's type. -/
def typeBlock (m : Model) : String × List String := (m.name, m.fields.map Field.declared)

/-- The block of the pages of an entity. -/
def pageBlock (entity : String) : String × List String :=
  (pageName entity, ["count: Int!", "rows: [" ++ entity ++ "]"])

namespace Document

/-- The blocks of a document without custom declarations, after its preamble. -/
def blocks (d : Document) : List (String × List String) :=
  (d.models.flatMap fun m => [typeBlock m, pageBlock m.name]) ++
    ("Query", Entries.values d.query) ::
      (if d.mutation.isEmpty then [] else [("Mutation", Entries.values d.mutation)])

theorem lineText_entityTypes (m : Model) : lineText (entityTypes m) =
    ([typeBlock m, pageBlock m.name].flatMap blockLines).flatMap lineText := by
  have htype := lineText_block (typeBlock m)
  have hpage := lineText_block (pageBlock m.name)
  simp only [List.flatMap_cons, List.flatMap_nil, List.append_nil, List.flatMap_append, ← htype,
    ← hpage]
  simp [entityTypes, lineText, typeBlock, pageBlock]

theorem lineText_render {d : Document} (h : d.declarations = []) : lineText d.render =
    lineText preamble ++ (d.blocks.flatMap blockLines).flatMap lineText := by
  have hmodels : (d.models.map entityTypes).flatMap lineText =
      ((d.models.flatMap fun m => [typeBlock m, pageBlock m.name]).flatMap blockLines).flatMap
        lineText := by
    rw [List.flatMap_map, List.flatMap_assoc, List.flatMap_assoc]
    exact List.flatMap_congr fun m _ => (lineText_entityTypes m).trans List.flatMap_assoc
  have hquery := lineText_block ("Query", Entries.values d.query)
  have hmutation := lineText_block ("Mutation", Entries.values d.mutation)
  unfold render blocks
  rw [lineText_intercalate (by simp), h]
  simp only [List.map_nil, List.append_nil, List.flatMap_append, List.flatMap_cons, hmodels, hquery,
    List.cons_append]
  cases d.mutation.isEmpty with
  | true => rfl
  | false => simp [hmutation]

/-- The text of a document tells its blocks. -/
theorem blocks_of_render {d d' : Document} (hd : d.declarations = []) (hd' : d'.declarations = [])
    (hlines : ∀ line ∈ d.blocks.flatMap blockLines, OneLine line)
    (hlines' : ∀ line ∈ d'.blocks.flatMap blockLines, OneLine line)
    (h : d.render = d'.render) : d.blocks = d'.blocks := by
  have htexts := lineText_render hd
  rw [h, lineText_render hd'] at htexts
  have hsame := code_line.flatMap_inj hlines' hlines (List.append_cancel_left htexts)
  exact code_block.flatMap_inj (fun _ _ => trivial) (fun _ _ => trivial) hsame.symm

end Document

end Schema

end EntityApi
