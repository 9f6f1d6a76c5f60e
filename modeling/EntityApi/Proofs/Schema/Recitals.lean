import EntityApi.Proofs.Overrides
import EntityApi.Proofs.Readback

/-! # Generated signatures given once more

A generated line goes on after its name with a parenthesis or a colon, so that the name
read off it is the one that it is kept under (`signatureName_signature`). No line end is
in it, and no blank at either end (`Spelled`), so that it is read as it was from any
block of such lines (`mem_of_recital`). What is merged is there already, in its place:
an extension of generated lines alone changes nothing (`mergeSignatures_of_recited`). -/
namespace EntityApi.Schema

/-! ## Lines and their names -/

theorem IsName.append {a b : String} (ha : IsName a) (hb : b.toList.all isNameChar = true) :
    IsName (a ++ b) := by
  obtain ⟨c, rest, hchars, hc, hrest⟩ := ha
  refine ⟨c, rest ++ b.toList, ?_, hc, ?_⟩
  · rw [String.toList_append, hchars, List.cons_append]
  · rw [List.all_append, hrest, hb]
    rfl

theorem isName_nameFor {entity : String} (h : IsName entity) (op : Operation) :
    IsName (op.nameFor entity) := by
  have hlabel : IsName op.label := by cases op <;> exact ⟨_, _, rfl, by decide, by decide⟩
  exact (hlabel.append (by decide)).append (List.all_eq_true.mpr fun _ => h.isNameChar_of_mem)

theorem isName_result {m : Model} (h : IsName m.name) (op : Operation) :
    IsName (signature m op).result := by
  unfold signature
  dsimp only
  split
  · exact h.append (by decide)
  · exact h

/-- Between the name and the result of a signature is something that begins with a parenthesis or
a colon. -/
theorem Signature.toList_text (s : Signature) : ∃ c middle,
    s.text.toList = s.name.toList ++ (c :: middle ++ s.result.toList) ∧ isNameChar c = false := by
  unfold text
  split
  · exact ⟨':', [' '], by simp, by decide⟩
  · refine ⟨'(', (", ".intercalate (s.arguments.map Argument.text)).toList ++ "): ".toList, ?_,
      by decide⟩
    simp

/-- The name of a generated line is the one that it is kept under. -/
theorem signatureName_signature {m : Model} (h : IsName m.name) (op : Operation) :
    signatureName (signature m op).text = .ok (op.nameFor m.name) := by
  obtain ⟨c, middle, htext, hc⟩ := (signature m op).toList_text
  refine signatureName_eq_ok.mpr ⟨[], _, htext, nofun, isName_nameFor h op, ?_⟩
  intro d hd
  cases hd
  exact hc

theorem signatureName_of_mem_signatureLines {m : Model} (h : IsName m.name) {root : Root}
    {e : String × String} (he : e ∈ signatureLines m root) : signatureName e.2 = .ok e.1 := by
  rw [signatureLines_eq] at he
  obtain ⟨op, _, rfl⟩ := List.mem_map.mp he
  exact signatureName_signature h op

theorem signatureName_of_mem_generated {models : List Model} (h : ∀ m ∈ models, IsName m.name)
    {root : Root} {e : String × String} (he : e ∈ Document.generated models root) :
    signatureName e.2 = .ok e.1 := by
  rw [generated_eq] at he
  obtain ⟨m, hm, he⟩ := List.mem_flatMap.mp (Entries.mem_ofList he)
  exact signatureName_of_mem_signatureLines (h m hm) he

/-! ## Blocks of generated lines -/

/-- Each line of the block is blank or one of those that are offered, with blanks around it. -/
def Recital (offered : List String) (block : String) : Prop :=
  ∀ row ∈ block.toList.splitOnP Text.isLineEnd, (∀ c ∈ row, Text.isBlank c = true) ∨
    ∃ line ∈ offered, Text.Padded line.toList row

/-- The extension has no types, and no lines but generated ones. -/
structure Recites (models : List Model) (ext : Extension) : Prop where
  types : ∀ c ∈ ext.types.toList, Text.isBlank c = true
  blocks : ∀ root, ∀ block ∈ ext.blocks root,
    Recital (Entries.values (Document.generated models root)) block

theorem Spelled.not_lineEnd {s : String} (h : Spelled s) :
    ∀ c ∈ s.toList, Text.isLineEnd c = false := by
  intro c hc
  rcases h c hc with hname | hmark
  · rw [Bool.eq_false_iff]
    intro hend
    have hblank := Text.isBlank_of_isLineEnd hend
    rw [isBlank_of_isNameChar hname] at hblank
    cases hblank
  · have hmarks : [':', ' ', '!', '(', ')', ',', '[', ']'].all (!Text.isLineEnd ·) = true := by
      decide
    simpa using List.all_eq_true.mp hmarks c hmark

/-- Lines without line ends in them are recited when they are put under one another. -/
theorem recital_intercalate {offered chosen : List String}
    (hends : ∀ line ∈ offered, ∀ c ∈ line.toList, Text.isLineEnd c = false)
    (h : ∀ line ∈ chosen, line ∈ offered) : Recital offered ("\n".intercalate chosen) := by
  unfold Recital
  induction chosen with
  | nil => exact List.forall_mem_singleton.mpr (.inl nofun)
  | cons line chosen ih =>
    obtain ⟨hline, hchosen⟩ := List.forall_mem_cons.mp h
    have hends := hends line hline
    by_cases hnil : chosen = []
    · subst hnil
      rw [String.intercalate_singleton, List.splitOnP_eq_singleton hends]
      exact List.forall_mem_singleton.mpr (.inr ⟨line, hline, .refl _⟩)
    · have hsplit : ("\n".intercalate (line :: chosen)).toList.splitOnP Text.isLineEnd =
          line.toList :: ("\n".intercalate chosen).toList.splitOnP Text.isLineEnd := by
        rw [String.intercalate_cons_of_ne_nil hnil, String.toList_append, String.toList_append,
          List.append_assoc]
        exact List.splitOnP_append_cons_of_forall_mem hends '\n' (by decide) _
      rw [hsplit]
      exact List.forall_mem_cons.mpr ⟨.inr ⟨line, hline, .refl _⟩, ih hchosen⟩

/-- A generated line with blanks around it is trimmed to the line. -/
theorem trimChars_signature {m : Model} (h : IsName m.name) (op : Operation) {row : List Char}
    (hrow : Text.Padded (signature m op).text.toList row) :
    Text.trimChars row = (signature m op).text.toList := by
  obtain ⟨c, middle, htext, _⟩ := (signature m op).toList_text
  refine Text.trimChars_of_ends (fun d hd => ?_) (fun d hd => ?_) hrow
  · obtain ⟨first, rest, hname, hfirst, _⟩ := isName_nameFor h op
    have hd : (op.nameFor m.name).toList.head? = some d := by
      rw [htext, show (signature m op).name = op.nameFor m.name from rfl, hname] at hd
      rw [hname]
      exact hd
    exact isBlank_of_isNameChar ((isName_nameFor h op).isNameChar_of_mem (List.mem_of_head? hd))
  · have hresult := isName_result h op
    have hd : (signature m op).result.toList.getLast? = some d := by
      obtain ⟨first, rest, hchars, _⟩ := hresult
      rw [htext, hchars, ← List.append_assoc, List.getLast?_append_of_ne_nil _ (by simp)] at hd
      rw [hchars]
      exact hd
    exact isBlank_of_isNameChar (hresult.isNameChar_of_mem (List.mem_of_getLast? hd))

/-- The lines that are read off a recital of generated lines are generated lines. -/
theorem mem_of_recital {models : List Model} (hnames : ∀ m ∈ models, IsName m.name) {root : Root}
    {block line : String} (h : Recital (Entries.values (Document.generated models root)) block)
    (hline : line ∈ Extension.linesOf block) :
    line ∈ Entries.values (Document.generated models root) := by
  obtain ⟨htrimmed, hfilled⟩ := List.mem_filter.mp hline
  obtain ⟨raw, hraw, rfl⟩ := List.mem_map.mp htrimmed
  obtain ⟨row, hrow, rfl⟩ := List.mem_map.mp hraw
  rcases h row (Text.mem_splitOnP_of_mem_lineChars hrow) with hblank | ⟨line, hoffered, hpadded⟩
  · have hempty : Text.trim (String.ofList row) = "" := by
      rw [Text.trim_eq_empty_iff, String.toList_ofList]
      exact hblank
    rw [hempty] at hfilled
    cases hfilled
  · obtain ⟨m, hm, op, rfl⟩ := Document.mem_values_generated hoffered
    have htrim : Text.trim (String.ofList row) = (signature m op).text := by
      rw [Text.trim, String.toList_ofList, trimChars_signature (hnames m hm) op hpadded,
        String.ofList_toList]
    rw [htrim]
    exact hoffered

/-! ## Documents -/

/-- Generated lines that are merged are there already, each under its name. -/
theorem mergeSignatures_of_offered {models : List Model} (hnames : ∀ m ∈ models, IsName m.name)
    {root : Root} {extensions : List Extension}
    (h : ∀ line ∈ linesUnder root extensions,
      line ∈ Entries.values (Document.generated models root)) :
    mergeSignatures root (Document.generated models root) extensions =
      .ok (Document.generated models root) := by
  have hread : ∀ line ∈ linesUnder root extensions,
      ∃ e ∈ Document.generated models root, named line = .ok e := by
    intro line hline
    obtain ⟨e, he, rfl⟩ := List.mem_map.mp (h line hline)
    exact ⟨e, he, named_eq_ok.mpr ⟨signatureName_of_mem_generated hnames he, rfl⟩⟩
  obtain ⟨entries, hentries⟩ := Result.exists_mapM.mpr fun line hline =>
    (hread line hline).imp fun _ h => h.2
  rw [mergeSignatures_eq, hentries, Result.ok_bind]
  refine congrArg Except.ok (Entries.merge_eq_self fun e he => ?_)
  obtain ⟨line, hline, hnamed⟩ := Result.exists_of_mem_right (Result.mapM_eq_ok.mp hentries) he
  obtain ⟨e', he', hnamed'⟩ := hread line hline
  obtain rfl := Except.ok.inj (hnamed.symm.trans hnamed')
  exact (Entries.get?_eq_some_iff (nodup_keys_generated models root)).mpr he'

/-- Extensions that recite generated lines leave the document as it is without them. -/
theorem assemble_of_recited {models : List Model} (hnames : ∀ m ∈ models, IsName m.name)
    {extensions : List Extension} (h : ∀ ext ∈ extensions, Recites models ext) :
    Document.assemble models extensions = .ok (Document.ofModels models) := by
  have hmerged : ∀ root, mergeSignatures root (Document.generated models root) extensions =
      .ok (Document.generated models root) := by
    refine fun root => mergeSignatures_of_offered hnames fun line hline => ?_
    obtain ⟨ext, hext, hline⟩ := List.mem_flatMap.mp hline
    obtain ⟨block, hblock, hline⟩ := List.mem_flatMap.mp hline
    exact mem_of_recital hnames ((h ext hext).blocks root block hblock) hline
  have hdeclarations : Document.declarationsOf extensions = [] := by
    refine List.filter_eq_nil_iff.mpr (List.forall_mem_map.mpr fun ext hext => ?_)
    rw [Text.trim_eq_empty_iff.mpr (h ext hext).types]
    decide
  rw [Document.assemble, hmerged .query, hmerged .mutation, hdeclarations]
  rfl

/-- **Generated signatures are known by their own names.** For models of entities all of whose names
are names of the schema language, the name read off each generated line is the one that it is kept
under. So the lines of the queries and those of the mutations can be given once more, any of them, in
any order, as custom signatures of any number of extensions: the document stays the same. -/
theorem generated_signatures_recognised {entities : List Entity} {models : List Model}
    (hmodels : entities.mapM Model.ofEntity = .ok models)
    (hnames : ∀ x ∈ entities, IsName x.name ∧ ∀ a ∈ Entries.keys x.attributes, IsName a) :
    (∀ root, ∀ m ∈ models, ∀ e ∈ signatureLines m root, signatureName e.2 = .ok e.1) ∧
    (∀ root, ∀ e ∈ Document.generated models root, signatureName e.2 = .ok e.1) ∧
    (∀ root (chosen : List String),
      (∀ line ∈ chosen, line ∈ Entries.values (Document.generated models root)) →
      Recital (Entries.values (Document.generated models root)) ("\n".intercalate chosen)) ∧
    ∀ extensions, (∀ ext ∈ extensions, Recites models ext) →
      Document.assemble models extensions = Document.assemble models [] ∧
      Document.assemble models extensions = .ok (Document.ofModels models) := by
  have hnamed : ∀ m ∈ models, Named m := by
    intro m hm
    obtain ⟨x, hx, hxm⟩ := Result.exists_of_mem_right (Result.mapM_eq_ok.mp hmodels) hm
    exact named_of_ofEntity hxm (hnames x hx).1 (hnames x hx).2
  have hentities : ∀ m ∈ models, IsName m.name := fun m hm => (hnamed m hm).entity
  refine ⟨fun root m hm e => signatureName_of_mem_signatureLines (hentities m hm),
    fun root e => signatureName_of_mem_generated hentities, fun root chosen => ?_,
    fun extensions hrecites => ?_⟩
  · refine recital_intercalate fun line hline => ?_
    obtain ⟨m, hm, op, rfl⟩ := Document.mem_values_generated hline
    exact (spelled_signature (hnamed m hm) op).not_lineEnd
  · rw [Document.assemble_nil]
    exact ⟨assemble_of_recited hentities hrecites, assemble_of_recited hentities hrecites⟩

theorem generated_signatures_recognised_of_user :
    let user : Entity := ⟨"User", [("age", { type := .text "integer" })], .null⟩
    let age : Field := .ofAttribute "age" .int { type := .text "integer" }
    let model : Model := ⟨"User", .key "id" .int, [.key "id" .int, age], [age]⟩
    let read := "read_User(id: Int!): User"
    let update := "update_User(id: Int!, age: Int): User"
    let extensions : List Extension := [
      { read := "\n".intercalate [read, read] },
      { types := " ", update := "  " ++ update ++ "\r\n" }]
    [user].mapM Model.ofEntity = .ok [model] ∧
    (∀ x ∈ [user], IsName x.name ∧ ∀ a ∈ Entries.keys x.attributes, IsName a) ∧
    (∀ ext ∈ extensions, Recites [model] ext) ∧
    signatureName read = .ok "read_User" ∧
    Document.assemble [model] extensions = .ok (Document.ofModels [model]) := by
  intro user age model read update extensions
  have hmodels : [user].mapM Model.ofEntity = .ok [model] := by decide +kernel
  have huser : IsName "User" := ⟨_, _, rfl, by decide, by decide⟩
  have hage : IsName "age" := ⟨_, _, rfl, by decide, by decide⟩
  have hnames : ∀ x ∈ [user], IsName x.name ∧ ∀ a ∈ Entries.keys x.attributes, IsName a :=
    List.forall_mem_singleton.mpr ⟨huser, List.forall_mem_singleton.mpr hage⟩
  obtain ⟨-, hgenerated, hrecital, hassemble⟩ := generated_signatures_recognised hmodels hnames
  have hempty : ∀ root, Recital (Entries.values (Document.generated [model] root)) "" :=
    fun root => hrecital root [] nofun
  have hread : ∀ line ∈ [read, read], line ∈ Entries.values (Document.generated [model] .query) := by
    decide +kernel
  have hupdate : update ∈ Entries.values (Document.generated [model] .mutation) := by decide +kernel
  have hpadded : Recital (Entries.values (Document.generated [model] .mutation))
      ("  " ++ update ++ "\r\n") := by
    have hrows : ("  " ++ update ++ "\r\n").toList.splitOnP Text.isLineEnd =
        [' ' :: ' ' :: update.toList, [], []] := by decide +kernel
    unfold Recital
    rw [hrows]
    refine List.forall_mem_cons.mpr ⟨.inr ⟨update, hupdate, [' ', ' '], [], ?_⟩, ?_⟩
    · exact ⟨by simp, List.all_eq_true.mp rfl, nofun⟩
    · exact List.forall_mem_cons.mpr ⟨.inl nofun, List.forall_mem_singleton.mpr (.inl nofun)⟩
  have hboth : ∀ {offered : List String} {first second : String}, Recital offered first →
      Recital offered second → ∀ block ∈ [first, second], Recital offered block :=
    fun h h' => List.forall_mem_cons.mpr ⟨h, List.forall_mem_singleton.mpr h'⟩
  have hrecites : ∀ ext ∈ extensions, Recites [model] ext := by
    refine List.forall_mem_cons.mpr ⟨⟨nofun, fun root => ?_⟩,
      List.forall_mem_singleton.mpr ⟨List.all_eq_true.mp (by decide), fun root => ?_⟩⟩
    · cases root with
      | query => exact hboth (hrecital _ _ hread) (hempty _)
      | mutation => exact hboth (hempty _) (hempty _)
    · cases root with
      | query => exact hboth (hempty _) (hempty _)
      | mutation => exact hboth (hempty _) hpadded
  have hentry : ("read_User", read) ∈ Document.generated [model] .query := by decide +kernel
  have hname := hgenerated .query ("read_User", read) hentry
  exact ⟨hmodels, hnames, hrecites, hname, (hassemble extensions hrecites).2⟩

end EntityApi.Schema
