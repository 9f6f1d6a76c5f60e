import EntityApi.Manifest
import EntityApi.Proofs.Coverage
import EntityApi.Proofs.Text.Blanks

/-! # Schema, resolvers and manifest list the same operations

The signature lines of a schema and the table of resolvers are made apart from
each other: both start from the operations of the entities, and the one is
overlaid with the signatures of the extensions, the other with the custom
resolvers. The names in each are told by the names that went into it
(`Schema.keys_of_mergeSignatures`, `Api.keys_overlay`), each where it first
occurs. Where the custom resolvers at each position answer just what the
extension at that position declares (`AnsweredBy`), the same names went into
both, and so they end up alike (`operations_agree`). -/
namespace EntityApi

open Operation

namespace Schema

/-! ## The names of the signature lines -/

theorem named_eq_ok {line : String} {e : String × String} :
    named line = .ok e ↔ signatureName line = .ok e.1 ∧ line = e.2 := by
  unfold named
  rw [Result.bind_eq_ok]
  constructor
  · rintro ⟨name, hn, he⟩
    cases he
    exact ⟨hn, rfl⟩
  · rintro ⟨hn, rfl⟩
    exact ⟨e.1, hn, rfl⟩

/-- The operations that an extension declares under a root type: the names of its signatures, each
where it first occurs. -/
def declaredNames (e : Extension) (root : Root) : Result (List String) := do
  return (← (e.signatures root).mapM signatureName).eraseDups

theorem declaredNames_eq_ok {e : Extension} {root : Root} {table : List (String × String)}
    (h : (e.signatures root).mapM named = .ok table) :
    declaredNames e root = .ok (Entries.keys (Entries.ofList table)) := by
  have hnames : (e.signatures root).mapM signatureName = .ok (Entries.keys table) := by
    rw [Result.mapM_eq_ok] at h ⊢
    exact List.forall₂_map_right_iff.mpr (h.imp fun _ _ hn => (named_eq_ok.mp hn).1)
  unfold declaredNames
  rw [hnames, Entries.keys_ofList]
  rfl

/-- An extension with signatures declares something. -/
theorem declaredNames_ne_nil {e : Extension} {root : Root} {names : List String}
    (hlines : e.signatures root ≠ []) (h : declaredNames e root = .ok names) : names ≠ [] := by
  obtain ⟨found, hfound, h⟩ := Result.bind_eq_ok.mp h
  cases h
  obtain ⟨line, hline⟩ := List.exists_mem_of_ne_nil _ hlines
  obtain ⟨name, hname, _⟩ := Result.exists_of_mem_left (Result.mapM_eq_ok.mp hfound) hline
  intro hempty
  have hmem : name ∈ found.eraseDups := List.mem_eraseDups.mpr hname
  rw [hempty] at hmem
  cases hmem

/-- The lines of a schema are the generated ones, overlaid with a table for each extension. -/
theorem mergeSignatures_eq_ok {root : Root} {lines merged : List (String × String)}
    {extensions : List Extension} (h : mergeSignatures root lines extensions = .ok merged) :
    ∃ tables, List.Forall₂ (fun e table => (e.signatures root).mapM named = .ok table)
        extensions tables ∧ merged = Entries.mergeAll lines (tables.map Entries.ofList) := by
  induction extensions generalizing lines with
  | nil =>
    cases h
    exact ⟨[], .nil, rfl⟩
  | cons e extensions ih =>
    obtain ⟨table, ht, h⟩ := Result.bind_eq_ok.mp h
    obtain ⟨tables, hts, rfl⟩ := ih h
    exact ⟨table :: tables, .cons ht hts, rfl⟩

/-! ## A line begins with the name that it is kept under -/

/-- The entry is a signature line under the name that it begins with. -/
def Headed (e : String × String) : Prop := e.1.toList <+: e.2.toList

theorem takeName_prefix (s : List Char) : takeName s <+: s := by
  cases s with
  | nil => exact List.nil_prefix
  | cons c s =>
    rw [takeName]
    split
    · exact List.cons_prefix_cons.mpr ⟨rfl, List.takeWhile_prefix _⟩
    · exact List.nil_prefix

theorem headed_of_signatureName {line name : String}
    (hl : Text.trimLeft line.toList = line.toList) (h : signatureName line = .ok name) :
    Headed (name, line) := by
  unfold signatureName at h
  rw [hl] at h
  have hprefix := takeName_prefix line.toList
  cases ht : takeName line.toList with
  | nil =>
    rw [ht] at h
    cases h
  | cons c rest =>
    rw [ht] at h hprefix
    cases h
    unfold Headed
    rw [String.toList_ofList]
    exact hprefix

theorem trimLeft_of_signature {e : Extension} {root : Root} {line : String}
    (h : line ∈ e.signatures root) : Text.trimLeft line.toList = line.toList := by
  obtain ⟨block, _, h⟩ := List.mem_flatMap.mp h
  obtain ⟨raw, _, rfl⟩ := List.mem_map.mp (List.mem_filter.mp h).1
  rw [Text.trim, String.toList_ofList, Text.trimLeft_trimChars]

theorem headed_of_named {e : Extension} {root : Root} {table : List (String × String)}
    (h : (e.signatures root).mapM named = .ok table) : ∀ entry ∈ table, Headed entry := by
  intro entry hm
  obtain ⟨line, hline, hn⟩ := Result.exists_of_mem_right (Result.mapM_eq_ok.mp h) hm
  obtain ⟨hname, rfl⟩ := named_eq_ok.mp hn
  exact headed_of_signatureName (trimLeft_of_signature hline) hname

theorem headed_signature (m : Model) (op : Operation) :
    Headed (op.nameFor m.name, (signature m op).text) := by
  unfold Headed Signature.text
  split <;> simp [signature, String.toList_append]

/-! ## The lines of a document -/

theorem keys_generated (models : List Model) (root : Root) :
    Entries.keys (Document.generated models root) =
      (namesUnder root (models.map Model.name)).eraseDups := by
  rw [generated_eq, Entries.keys_ofList, keys_signatureLines]

theorem nodup_keys_generated (models : List Model) (root : Root) :
    (Entries.keys (Document.generated models root)).Nodup := by
  rw [generated_eq]
  exact Entries.nodup_keys_ofList _

theorem assemble_eq_ok {models : List Model} {extensions : List Extension} {d : Document}
    (h : Document.assemble models extensions = .ok d) (root : Root) :
    mergeSignatures root (Document.generated models root) extensions = .ok (d.signatures root) := by
  obtain ⟨query, hq, h⟩ := Result.bind_eq_ok.mp h
  obtain ⟨mutation, hm, h⟩ := Result.bind_eq_ok.mp h
  cases h
  cases root with
  | query => exact hq
  | mutation => exact hm

/-- The names in a document: those of the entities' operations and those that the extensions
declare, each where it first occurs. -/
theorem keys_of_mergeSignatures {models : List Model} {extensions : List Extension} {root : Root}
    {merged : List (String × String)}
    (h : mergeSignatures root (Document.generated models root) extensions = .ok merged) :
    ∃ declared, List.Forall₂ (fun e names => declaredNames e root = .ok names) extensions declared ∧
      Entries.keys merged =
        ((namesUnder root (models.map Model.name)).eraseDups ++ declared.flatten).eraseDups := by
  obtain ⟨tables, ht, rfl⟩ := mergeSignatures_eq_ok h
  refine ⟨tables.map fun table => Entries.keys (Entries.ofList table), ?_, ?_⟩
  · exact List.forall₂_map_right_iff.mpr (ht.imp fun _ _ h => declaredNames_eq_ok h)
  · rw [Entries.keys_mergeAll (nodup_keys_generated models root), keys_generated, List.map_map]
    rfl

/-- Everything in a document stands under the name that it begins with. -/
theorem headed_of_mergeSignatures {models : List Model} {extensions : List Extension} {root : Root}
    {merged : List (String × String)}
    (h : mergeSignatures root (Document.generated models root) extensions = .ok merged) :
    ∀ entry ∈ merged, Headed entry := by
  obtain ⟨tables, ht, rfl⟩ := mergeSignatures_eq_ok h
  intro entry hm
  rw [Entries.mergeAll_eq, generated_eq] at hm
  rcases Entries.mem_merge hm with hm | hm
  · -- a generated line
    obtain ⟨m, _, hm⟩ := List.mem_flatMap.mp (Entries.mem_ofList hm)
    rw [signatureLines_eq] at hm
    obtain ⟨op, _, rfl⟩ := List.mem_map.mp hm
    exact headed_signature m op
  · -- a line of an extension
    obtain ⟨merged, hmerged, hm⟩ := List.mem_flatten.mp hm
    obtain ⟨table, htable, rfl⟩ := List.mem_map.mp hmerged
    obtain ⟨e, _, hnamed⟩ := Result.exists_of_mem_right ht htable
    exact headed_of_named hnamed entry (Entries.mem_ofList hm)

theorem declaredNames_getD {extensions : List Extension} {declared : List (List String)}
    {root : Root}
    (h : List.Forall₂ (fun e names => declaredNames e root = .ok names) extensions declared)
    (i : Nat) : declaredNames (extensions.getD i {}) root = .ok (declared.getD i []) := by
  induction h generalizing i with
  | nil => cases root <;> simp [declaredNames, Extension.signatures, Extension.blocks,
      Extension.linesOf, Text.lines, Text.lineChars] <;> rfl
  | cons hnames _ ih =>
    cases i with
    | zero => exact hnames
    | succ i => exact ih i

/-- The text of a document, with the block of the queries and, if there are any, that of the
mutations. -/
theorem Document.render_eq {d : Document} (hq : d.query ≠ []) : d.render = "\n".intercalate (
    preamble :: d.models.map entityTypes ++ d.declarations.map (· ++ "\n") ++
    blockText "Query" (Entries.values d.query) ::
    (if d.mutation = [] then [] else [blockText "Mutation" (Entries.values d.mutation)])) := by
  rw [render, block_values hq]
  by_cases hm : d.mutation = []
  · rw [if_pos hm, if_pos (List.isEmpty_iff.mpr hm)]
  · rw [if_neg hm, if_neg (mt List.isEmpty_iff.mp hm), block_values hm]

end Schema

namespace Api

variable {σ : Type}

/-! ## The names of the resolvers -/

theorem keys_handlers (models : List Model) (root : Root) :
    Entries.keys (handlers root models) =
      (namesUnder root (models.map Model.name)).eraseDups := by
  rw [handlers, Entries.keys_ofList, keys_handlersFrom]

theorem nodup_keys_handlers (models : List Model) (root : Root) :
    (Entries.keys (handlers root models)).Nodup := Entries.nodup_keys_ofList _

/-- The names of resolvers: those of the table and those of the custom resolvers, each where it
first occurs. -/
theorem keys_overlay (root : Root) (custom : List CustomResolvers)
    {table : List (String × Handler)} (h : (Entries.keys table).Nodup) :
    Entries.keys (overlay root custom table) = (Entries.keys table ++
      (custom.map fun c => Entries.keys (c.ofRoot root)).flatten).eraseDups := by
  rw [overlay, Entries.keys_mergeAll h, List.map_map]
  congr 3
  apply List.map_congr_left
  intro c _
  simp [Entries.keys, Function.comp_def]

/-- The custom resolvers at each position answer just the operations that the extension at that
position declares, in the same order. Past the end of a list there is nothing. -/
def AnsweredBy (extensions : List Schema.Extension) (custom : List CustomResolvers) : Prop :=
  ∀ root i, Schema.declaredNames (extensions.getD i {}) root =
    .ok (Entries.keys ((custom.getD i {}).ofRoot root))

theorem flatten_eq_of_getD {α : Type} {l m : List (List α)}
    (h : ∀ i, l.getD i [] = m.getD i []) : l.flatten = m.flatten := by
  induction l generalizing m with
  | nil =>
    symm
    rw [List.flatten_nil, List.flatten_eq_nil_iff]
    intro s hs
    obtain ⟨i, hi⟩ := List.mem_iff_getElem?.mp hs
    have := h i
    simpa [List.getD, hi] using this.symm
  | cons a l ih =>
    cases m with
    | nil =>
      have hhead := h 0
      have htail := ih (m := []) fun i => by simpa using h (i + 1)
      simp only [List.getD_cons_zero, List.getD_nil] at hhead
      rw [List.flatten_cons, htail, hhead]
      rfl
    | cons b m =>
      have hhead := h 0
      have htail := ih (m := m) fun i => by simpa using h (i + 1)
      simp only [List.getD_cons_zero] at hhead
      rw [List.flatten_cons, List.flatten_cons, htail, hhead]

/-! ## What is listed -/

/-- The lists of an interface, as they stand by themselves: the schema ends with a block of all
queries, of which there are some, and with one of all mutations unless there are none, its lines begin
with the names that they are kept under, and the manifest lists for each entity only operations that
it lists at large. -/
structure WellListed (api : Api σ) : Prop where
  sdl : api.sdl = "\n".intercalate (
    Schema.preamble :: api.document.models.map Schema.entityTypes ++
    api.document.declarations.map (· ++ "\n") ++
    Schema.blockText "Query" (Entries.values api.document.query) ::
    (if api.document.mutation = [] then []
      else [Schema.blockText "Mutation" (Entries.values api.document.mutation)]))
  filled : api.document.query ≠ []
  headed : ∀ root, ∀ e ∈ api.document.signatures root, Schema.Headed e
  queries : ∀ revision, ∀ e ∈ (Manifest.ofApi api revision).entities, ∀ name ∈ e.queries,
    name ∈ (Manifest.ofApi api revision).query
  mutations : ∀ revision, ∀ e ∈ (Manifest.ofApi api revision).entities, ∀ name ∈ e.mutations,
    name ∈ (Manifest.ofApi api revision).mutation

/-- The schema, the resolvers and the manifest list the same operations under each root type, in the
same order and none twice. -/
structure ListsAlike (api : Api σ) : Prop where
  distinct : ∀ root, (Entries.keys (api.document.signatures root)).Nodup
  resolvers : ∀ root,
    Entries.keys (api.handlersOf root) = Entries.keys (api.document.signatures root)
  query : ∀ revision,
    (Manifest.ofApi api revision).query = Entries.keys (api.document.signatures .query)
  mutation : ∀ revision,
    (Manifest.ofApi api revision).mutation = Entries.keys (api.document.signatures .mutation)

section

variable {entities : List Entity} {supply : Supply σ} {extensions : List Schema.Extension}
  {custom : List CustomResolvers} {largest : Value} {api : Api σ}

/-- The lines of an interface are merged from those of its models and of the extensions, and its
resolvers from the handlers of its models and the custom ones. -/
theorem listed_of_build (h : build entities supply extensions custom largest = .ok api) :
    (entities ≠ [] ∨ ∃ e ∈ extensions, e.signatures .query ≠ []) ∧
    entities.map Entity.name = api.models.map Model.name ∧ ∀ root,
      Schema.mergeSignatures root (Schema.Document.generated api.models root) extensions =
        .ok (api.document.signatures root) ∧
      api.handlersOf root = overlay root custom (handlers root api.models) := by
  obtain ⟨generated, hg, rfl⟩ := build_ok h
  have hserved := served_of_generate hg
  obtain ⟨models, document, bindings, _, hm, hd, hb, rfl⟩ := generate_ok hg
  have hmodels := models_of_bind hm hb
  refine ⟨hserved, ?_, ?_⟩
  · rw [← names_of_models hm, ← hmodels]
    rfl
  · intro root
    change Schema.mergeSignatures root
      (Schema.Document.generated (bindings.map Binding.model) root) extensions = _ ∧ _
    rw [hmodels]
    refine ⟨Schema.assemble_eq_ok hd root, ?_⟩
    change _ = overlay root custom (handlers root (bindings.map Binding.model))
    rw [hmodels]
    cases root <;> rfl

/-- There is always a query in the schema. -/
theorem query_ne_nil (h : build entities supply extensions custom largest = .ok api) :
    api.document.query ≠ [] := by
  obtain ⟨hserved, hnames, hlists⟩ := listed_of_build h
  obtain ⟨declared, hd, hkeys⟩ := Schema.keys_of_mergeSignatures (hlists .query).1
  have hsome : ∃ name, name ∈ Entries.keys (api.document.signatures .query) := by
    simp only [hkeys, List.mem_eraseDups, List.mem_append]
    rcases hserved with hentities | ⟨e, he, hlines⟩
    · obtain ⟨e, he⟩ := List.exists_mem_of_ne_nil _ hentities
      refine ⟨read.nameFor e.name, .inl (mem_namesUnder.mpr ⟨e.name, ?_, read, rfl, rfl⟩)⟩
      rw [← hnames]
      exact List.mem_map_of_mem he
    · obtain ⟨names, hnames, hdeclared⟩ := Result.exists_of_mem_left hd he
      obtain ⟨name, hname⟩ := List.exists_mem_of_ne_nil _
        (Schema.declaredNames_ne_nil hlines hdeclared)
      exact ⟨name, .inr (List.mem_flatten.mpr ⟨names, hnames, hname⟩)⟩
  obtain ⟨name, hname⟩ := hsome
  intro hempty
  change name ∈ Entries.keys api.document.query at hname
  rw [hempty] at hname
  cases hname

/-- The operations of every entity are among the resolvers. -/
theorem mem_keys_of_entity (h : build entities supply extensions custom largest = .ok api)
    {m : Model} (hm : m ∈ api.models) (op : Operation) :
    op.nameFor m.name ∈ Entries.keys (api.handlersOf op.root) := by
  obtain ⟨_, _, hlists⟩ := listed_of_build h
  rw [(hlists op.root).2, keys_overlay _ _ (nodup_keys_handlers _ _), keys_handlers]
  simp only [List.mem_eraseDups, List.mem_append]
  exact .inl (mem_namesUnder.mpr ⟨m.name, List.mem_map_of_mem hm, op, rfl, rfl⟩)

theorem wellListed_of_build (h : build entities supply extensions custom largest = .ok api) :
    WellListed api where
  sdl := Schema.Document.render_eq (query_ne_nil h)
  filled := query_ne_nil h
  headed root := by
    obtain ⟨_, _, hlists⟩ := listed_of_build h
    exact Schema.headed_of_mergeSignatures (hlists root).1
  queries _ e he name hname := by
    obtain ⟨m, hm, rfl⟩ := List.mem_map.mp he
    obtain ⟨op, hop, rfl⟩ := List.mem_map.mp hname
    have hmem := mem_keys_of_entity h hm op
    rw [mem_ofRoot.mp hop] at hmem
    exact hmem
  mutations _ e he name hname := by
    obtain ⟨m, hm, rfl⟩ := List.mem_map.mp he
    obtain ⟨op, hop, rfl⟩ := List.mem_map.mp hname
    have hmem := mem_keys_of_entity h hm op
    rw [mem_ofRoot.mp hop] at hmem
    exact hmem

/-- The two tables under a root type went through the same names. -/
theorem keys_handlersOf_eq (h : build entities supply extensions custom largest = .ok api)
    (ha : AnsweredBy extensions custom) (root : Root) :
    Entries.keys (api.handlersOf root) = Entries.keys (api.document.signatures root) := by
  obtain ⟨_, _, hlists⟩ := listed_of_build h
  obtain ⟨declared, hd, hkeys⟩ := Schema.keys_of_mergeSignatures (hlists root).1
  have hsame : declared.flatten = (custom.map fun c => Entries.keys (c.ofRoot root)).flatten := by
    apply flatten_eq_of_getD
    intro i
    have hdeclared := Schema.declaredNames_getD hd i
    rw [ha root i] at hdeclared
    rw [← Except.ok.inj hdeclared, List.getD_eq_getElem?_getD, List.getD_eq_getElem?_getD,
      List.getElem?_map]
    cases custom[i]? with
    | some c => rfl
    | none => cases root <;> rfl
  rw [hkeys, (hlists root).2, keys_overlay _ _ (nodup_keys_handlers _ _), keys_handlers, hsame]

theorem nodup_keys_signatures (h : build entities supply extensions custom largest = .ok api)
    (root : Root) : (Entries.keys (api.document.signatures root)).Nodup := by
  obtain ⟨_, _, hlists⟩ := listed_of_build h
  obtain ⟨tables, _, hmerged⟩ := Schema.mergeSignatures_eq_ok (hlists root).1
  rw [hmerged, Entries.mergeAll_eq]
  exact Entries.nodup_keys_merge (Schema.nodup_keys_generated _ root) _

/-- **Schema, resolvers and manifest list the same operations.** An interface that was built has no
empty block of operations in its schema, and lists every operation of its entities. If custom
resolvers and extensions match position by position, then the lines of the schema, the resolvers
and the lists of the manifest go through the same names in the same order, none of them twice. -/
theorem operations_agree (h : build entities supply extensions custom largest = .ok api) :
    WellListed api ∧ (AnsweredBy extensions custom → ListsAlike api) := by
  refine ⟨wellListed_of_build h, fun ha => ⟨nodup_keys_signatures h, keys_handlersOf_eq h ha, ?_, ?_⟩⟩
  · exact fun _ => keys_handlersOf_eq h ha .query
  · exact fun _ => keys_handlersOf_eq h ha .mutation

end

/-- An extension that replaces the reading of users and adds a count, with resolvers for both. -/
theorem operations_agree_of_user : ∃ api,
    build [⟨"User", [], .null⟩] emptyStores
      [{ read := "read_User(id: Int): User\ncount_User: Int" }]
      [{ query := [("read_User", .text "r"), ("count_User", .text "c")] }] .null = .ok api ∧
    AnsweredBy [{ read := "read_User(id: Int): User\ncount_User: Int" }]
      [{ query := [("read_User", .text "r"), ("count_User", .text "c")] }] ∧
    Entries.keys api.query = ["read_User", "read_multiple_User", "count_User"] ∧
    WellListed api ∧ ListsAlike api := by
  obtain ⟨api, h⟩ := Result.exists_of_isOk
    (x := build [⟨"User", [], .null⟩] emptyStores
      [{ read := "read_User(id: Int): User\ncount_User: Int" }]
      [{ query := [("read_User", .text "r"), ("count_User", .text "c")] }] .null)
    (by decide +kernel)
  have hanswered : AnsweredBy [{ read := "read_User(id: Int): User\ncount_User: Int" }]
      [{ query := [("read_User", .text "r"), ("count_User", .text "c")] }] := by
    intro root i
    cases i with
    | zero => cases root <;> decide +kernel
    | succ i => cases root <;> exact Schema.declaredNames_getD .nil i
  have hquery : (build [⟨"User", [], .null⟩] emptyStores
      [{ read := "read_User(id: Int): User\ncount_User: Int" }]
      [{ query := [("read_User", .text "r"), ("count_User", .text "c")] }]
      .null).toOption.map (Entries.keys ·.query) =
        some ["read_User", "read_multiple_User", "count_User"] := by decide +kernel
  rw [h] at hquery
  obtain ⟨hlisted, halike⟩ := operations_agree h
  exact ⟨api, h, hanswered, Option.some.inj hquery, hlisted, halike hanswered⟩

end Api

end EntityApi
