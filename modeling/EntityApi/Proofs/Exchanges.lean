import EntityApi.Proofs.Precedence
import EntityApi.Proofs.Steps
import EntityApi.Service.Router

/-! # What every exchange comes to

The guard turns away just the requests that come to a place that needs a key
without it (`TurnedAway`), and all others are answered behind it. Either way the
response is marked with the identifier of the exchange, which is told from the
headers of the request alone (`Identifies`), and one line reports the exchange. What
place a request comes to is what the web framework says of it, and nothing comes of
an exchange of which it cannot say that. These are the cases of `Exchange`: one step
is an exchange (`exchange_of_answer`), and a run of the service is a list of them
(`exchanges_of_answerAll`). -/
namespace EntityApi

namespace Http

variable {r : Request} {name value : String} {headers : List (String × String)}

/-! ## Requests and their headers -/

/-- The value is that of the first header of the name, in whatever case the header has its name. -/
def Request.Brings (r : Request) (name value : String) : Prop :=
  ∃ before n after, r.headers = before ++ (n, value) :: after ∧ n.map Char.toLower = name ∧
    ∀ h ∈ before, h.1.map Char.toLower ≠ name

theorem Request.header?_eq_some_iff : r.header? name = some value ↔ r.Brings name value := by
  unfold header? Brings
  rw [Option.map_eq_some_iff]
  simp only [List.find?_eq_some_iff_append, beq_iff_eq, Bool.not_eq_true', beq_eq_false_iff_ne]
  constructor
  · rintro ⟨⟨n, v⟩, ⟨hn, before, after, hsplit, hbefore⟩, rfl⟩
    exact ⟨before, n, after, hsplit, hn, hbefore⟩
  · rintro ⟨before, n, after, hsplit, hn, hbefore⟩
    exact ⟨(n, value), ⟨hn, before, after, hsplit, hbefore⟩, rfl⟩

/-- A sign that stands for itself in an address. -/
def Visible (c : Char) : Prop := '!' ≤ c ∧ c ≤ '~'

instance : DecidablePred Visible := fun c => inferInstanceAs (Decidable ('!' ≤ c ∧ c ≤ '~'))

/-- What is so of all signs of a text can be checked sign by sign. -/
theorem forall_of_all {p : Char → Prop} [DecidablePred p] {cs : List Char}
    (h : cs.all (decide <| p ·) = true) : ∀ c ∈ cs, p c :=
  fun c hc => of_decide_eq_true (List.all_eq_true.mp h c hc)

/-- A request of which it is plain to what path it goes: the target is a path from a single slash in
visible signs, none of them escaped, perhaps with a query, and the host, if one is named, is over where
the target begins. -/
structure Request.Plain (r : Request) : Prop where
  leading : ∃ rest, r.target.toList = '/' :: rest ∧ rest.head? ≠ some '/'
  visible : ∀ c ∈ r.target.toList, Visible c
  unescaped : '%' ∉ r.path.toList
  host : ∀ host, r.Brings "host" host → ∀ c ∈ host.toList, Visible c ∧ c ∉ ['/', '?', '#', '[', ']']

/-- Of plain requests the framework tells the path of the target. -/
def Framework.TellsTargets (f : Framework) : Prop :=
  ∀ r : Request, r.Plain → f.path? r = some r.path

/-- No sign of the host of a plain request ends the host or is a bracket. -/
theorem Request.Plain.signs_of_host (h : r.Plain) :
    ∀ c ∈ ((r.header? "host").getD "").toList, c ∉ ['/', '?', '#', '[', ']'] := by
  intro c hc
  cases hheader : r.header? "host" with
  | none => simp [hheader] at hc
  | some host =>
    rw [hheader] at hc
    exact (h.host host (Request.header?_eq_some_iff.mp hheader) c hc).2

theorem router_tellsTargets : router.TellsTargets := by
  intro r hplain
  obtain ⟨rest, htarget, -⟩ := hplain.leading
  have hhost := hplain.signs_of_host
  show r.addressPath? = some r.path
  unfold Request.addressPath? Request.path
  generalize ((r.header? "host").getD "").toList = host at hhost
  have hpos : ∀ c ∈ host, (!Request.endsHost c) = true := by
    intro c hc
    have hc := hhost c hc
    simp only [List.mem_cons, not_or] at hc
    simp [Request.endsHost, hc]
  -- the host ends with the slash that the target begins with
  have htake : (host ++ '/' :: rest).takeWhile (!Request.endsHost ·) = host := by
    rw [List.takeWhile_append_of_pos hpos]
    simp [Request.endsHost]
  have hdrop : (host ++ '/' :: rest).dropWhile (!Request.endsHost ·) = '/' :: rest := by
    rw [List.dropWhile_append_of_pos hpos]
    simp [Request.endsHost]
  have hopening : host.contains '[' = false := by simpa using fun hc => hhost _ hc (by decide)
  have hclosing : host.contains ']' = false := by simpa using fun hc => hhost _ hc (by decide)
  dsimp only
  rw [htarget, htake, hdrop, hopening, hclosing]
  rfl

/-- A header that is set is there once. -/
theorem filter_setHeader (headers : List (String × String)) (name value : String) :
    (setHeader headers name value).filter (fun h => h.1 == name) = [(name, value)] := by
  induction headers with
  | nil => simp [setHeader]
  | cons h headers ih =>
    obtain ⟨n, v⟩ := h
    unfold setHeader
    split
    · have hothers : (headers.filter fun h => h.1 != name).filter (fun h => h.1 == name) = [] := by
        simp [List.filter_filter, List.filter_eq_nil_iff]
      simp [hothers]
    · rename_i hn
      simpa [hn] using ih

/-- The other headers stay as they are. -/
theorem filter_setHeader_others (headers : List (String × String)) (name value : String) :
    (setHeader headers name value).filter (fun h => h.1 != name) =
      headers.filter fun h => h.1 != name := by
  induction headers with
  | nil => simp [setHeader]
  | cons h headers ih =>
    obtain ⟨n, v⟩ := h
    unfold setHeader
    split
    · rename_i hn
      simp [bne, hn, List.filter_filter]
    · rename_i hn
      simpa [bne, hn] using ih

end Http

namespace Log.Journal

/-- The journal with lines that report exchanges, unless its threshold keeps these out. -/
def reporting (j : Journal) (lines : List String) : Journal :=
  { j with lines := j.lines ++ if j.admits info then lines else [] }

variable (j : Journal) (lines : List String)

@[simp] theorem reporting_now : (j.reporting lines).now = j.now := rfl

@[simp] theorem reporting_nil : j.reporting [] = j := by
  simp [reporting]

variable {j lines}

theorem reporting_of_admits (h : j.admits info = true) :
    j.reporting lines = { j with lines := j.lines ++ lines } := by
  rw [reporting, h]
  rfl

theorem reporting_of_not_admits (h : j.admits info = false) : j.reporting lines = j := by
  simp [reporting, h]

@[simp] theorem reporting_reporting (j : Journal) (lines more : List String) :
    (j.reporting lines).reporting more = j.reporting (lines ++ more) := by
  have hadmits : (j.reporting lines).admits info = j.admits info := rfl
  rw [reporting, hadmits]
  unfold reporting
  cases j.admits info <;> simp

theorem admits_info_of_threshold {n : Int} (h : j.threshold = .int n) (hn : n ≠ 0) :
    j.admits info = decide (n ≤ info) := by
  have heffective : j.effective = n := by
    unfold effective
    rw [h]
    exact if_neg hn
  have hinfo : decide (0 < info) = true := rfl
  unfold admits
  rw [heffective, hinfo, Bool.true_and]

end Log.Journal

namespace Service

open Http

variable {σ : Type} {s : Service} {f : Framework} {r : Request} {freshId id path : String}
  {next : Responder}

/-! ## The guard -/

/-- The guard does not let a request to the path through: there is a key, the place is not open to
all, and the first header for the key is missing or is not the key. -/
structure TurnedAway (key path : String) (r : Request) : Prop where
  keyed : key ≠ ""
  notHealth : path ≠ "/healthz"
  notWellKnown : ¬"/.well-known/".toList <+: path.toList
  withoutKey : ¬r.Brings "x-api-key" key

theorem isOpen_eq_false_iff :
    isOpen path = false ↔ path ≠ "/healthz" ∧ ¬"/.well-known/".toList <+: path.toList := by
  unfold isOpen healthPath wellKnown
  rw [Bool.or_eq_false_iff, beq_eq_false_iff_ne, ← String.startsWith_string_iff, Bool.not_eq_true]

theorem turnedAway_iff {key : String} : TurnedAway key path r ↔ key.isEmpty = false ∧
    (isOpen path || r.header? "x-api-key" == some key) = false := by
  have hempty : key.isEmpty = false ↔ key ≠ "" := by
    rw [← Bool.not_eq_true, String.isEmpty_iff]
  have hkey : (r.header? "x-api-key" == some key) = false ↔ ¬r.Brings "x-api-key" key := by
    rw [beq_eq_false_iff_ne, ne_eq, Request.header?_eq_some_iff]
  rw [Bool.or_eq_false_iff, isOpen_eq_false_iff, hempty, hkey]
  constructor
  · intro h
    exact ⟨h.keyed, ⟨h.notHealth, h.notWellKnown⟩, h.withoutKey⟩
  · rintro ⟨hkeyed, ⟨hhealth, hwellKnown⟩, hbrings⟩
    exact ⟨hkeyed, hhealth, hwellKnown, hbrings⟩

theorem guarded_of_turnedAway (hpath : f.path? r = some path) (h : TurnedAway s.apiKey path r) :
    s.guarded f next r = some .unauthorized := by
  obtain ⟨hkey, hclosed⟩ := turnedAway_iff.mp h
  unfold guarded
  simp only [hkey, hpath, Bool.false_eq_true, ↓reduceIte, Option.bind_eq_bind, Option.bind_some,
    hclosed]

theorem guarded_of_not_turnedAway (hpath : f.path? r = some path)
    (h : ¬TurnedAway s.apiKey path r) : s.guarded f next r = next r := by
  unfold guarded
  split
  · rfl
  · rename_i hkey
    rw [turnedAway_iff, not_and, Bool.not_eq_false] at h
    simp only [hpath, Option.bind_eq_bind, Option.bind_some, h (Bool.eq_false_iff.mpr hkey),
      ↓reduceIte]

/-! ## The identifier of an exchange -/

/-- What an exchange is known by: what the request brings along unless that is empty, and else the
identifier that is generated for it. -/
structure Identifies (freshId : String) (r : Request) (id : String) : Prop where
  brought : ∀ value, r.Brings "x-correlation-id" value → value ≠ "" → id = value
  fresh : (∀ value, r.Brings "x-correlation-id" value → value = "") → id = freshId

theorem identifies_broughtId? (freshId : String) (r : Request) :
    Identifies freshId r ((broughtId? r).getD freshId) := by
  unfold broughtId? idHeader
  constructor
  · intro value hbrings hne
    rw [Request.header?_eq_some_iff.mpr hbrings]
    simp [Option.filter, hne]
  · intro hempty
    cases hheader : r.header? "x-correlation-id" with
    | none => rfl
    | some value =>
      rw [hempty value (Request.header?_eq_some_iff.mp hheader)]
      rfl

/-- The response is the given one with the identifier in just one header. -/
structure Marked (response : Response) (id : String) (marked : Response) : Prop where
  status : marked.status = response.status
  body : marked.body = response.body
  once : marked.headers.filter (fun h => h.1 == "x-correlation-id") = [("x-correlation-id", id)]
  others : marked.headers.filter (fun h => h.1 != "x-correlation-id") =
    response.headers.filter fun h => h.1 != "x-correlation-id"

theorem marked_withHeader (response : Response) (id : String) :
    Marked response id (response.withHeader idHeader id) where
  status := rfl
  body := rfl
  once := filter_setHeader response.headers idHeader id
  others := filter_setHeader_others response.headers idHeader id

/-! ## The line of an exchange -/

/-- What the line that reports an exchange tells. -/
def exchangeReport (now : Binary64) (id path : String) (r : Request) (status : Nat) :
    List (String × Json) := [
  ("ts", .number (Value.realJson now)), ("event", .string "request"), ("cid", .string id),
  ("method", .string r.method), ("path", .string path), ("status", .number (toString status)),
  ("dur_ms", .number "0")]

/-- The line that reports an exchange. -/
def exchangeLine (now : Binary64) (id path : String) (r : Request) (status : Nat) : String :=
  (Json.object (exchangeReport now id path r status)).compact

theorem toJson?_status {status : Nat} (h : status < 1000) :
    Value.toJson? (.int status) = .ok (.number (toString status)) := by
  have hpow : ∀ k, 3 ≤ k → (status : Int).natAbs < Nat.pow 10 k :=
    fun k hk => Nat.lt_of_lt_of_le h (Nat.pow_le_pow_right (n := 10) (by decide) hk)
  exact Value.toJson?_int_of_lt (hpow Numeral.digitLimit (by decide))

theorem lineOf_exchangeEvent (j : Log.Journal) (id path : String) (r : Request) {status : Nat}
    (h : status < 1000) :
    j.lineOf (exchangeEvent id path r status) = .ok (exchangeLine j.now id path r status) := by
  have hrecord : Entries.merge (j.heading "request") (exchangeEvent id path r status).fields =
      j.heading "request" ++ (exchangeEvent id path r status).fields := by
    refine Entries.merge_eq_append ?_
    show ["ts", "event", "cid", "method", "path", "status", "dur_ms"].Nodup
    decide
  have hduration : Value.toJson? (.int 0) = .ok (.number "0") :=
    toJson?_status (by decide : (0 : Nat) < 1000)
  have hwritten : List.Forall₂ (fun (f : String × Value) (m : String × Json) =>
      f.1 = m.1 ∧ f.2.toJson? = .ok m.2)
      (j.heading "request" ++ (exchangeEvent id path r status).fields)
      (exchangeReport j.now id path r status) :=
    .cons ⟨rfl, rfl⟩ (.cons ⟨rfl, rfl⟩ (.cons ⟨rfl, rfl⟩ (.cons ⟨rfl, rfl⟩ (.cons ⟨rfl, rfl⟩
      (.cons ⟨rfl, toJson?_status h⟩ (.cons ⟨rfl, hduration⟩ .nil))))))
  have hname : (exchangeEvent id path r status).name = "request" := rfl
  unfold Log.Journal.lineOf
  dsimp only
  rw [hname, hrecord, Value.toJson?_map hwritten]
  rfl

/-! ## Exchanges -/

/-- What an exchange comes to, given the key of the service, what answers behind the guard and the path
that is told of the request, if one is: the response and the line that reports the exchange. -/
inductive Exchange (key : String) (behind : Responder) (now : Binary64) (freshId : String)
    (r : Request) : Option String → Option Response → Option String → Prop
  | turnedAway {path id : String} {reply : Response} (haway : TurnedAway key path r)
      (hid : Identifies freshId r id) (hreply : Marked .unauthorized id reply) :
      Exchange key behind now freshId r (some path) (some reply)
        (some (exchangeLine now id path r 401))
  | answered {path id : String} {response reply : Response} (haway : ¬TurnedAway key path r)
      (hbehind : behind r = some response) (hid : Identifies freshId r id)
      (hreply : Marked response id reply) :
      Exchange key behind now freshId r (some path) (some reply)
        (some (exchangeLine now id path r reply.status))
  | failed {path id : String} (haway : ¬TurnedAway key path r) (hbehind : behind r = none)
      (hid : Identifies freshId r id) :
      Exchange key behind now freshId r (some path) none (some (exchangeLine now id path r 500))
  /-- The address of the request makes no sense, and nothing comes of the exchange. -/
  | untold : Exchange key behind now freshId r none none none

theorem record_exchangeEvent (j : Log.Journal) (id path : String) (r : Request) {status : Nat}
    (h : status < 1000) : j.record (exchangeEvent id path r status) =
      .ok (j.reporting [exchangeLine j.now id path r status]) := by
  have hlevel : (exchangeEvent id path r status).level = Log.info := rfl
  unfold Log.Journal.record Log.Journal.reporting
  rw [hlevel]
  split
  · rw [lineOf_exchangeEvent j id path r h]
    rfl
  · rw [List.append_nil]
    rfl

/-- One request is one exchange, and adds its line. -/
theorem exchange_of_answer (s : Service) (f : Framework) (freshId : String) (j : Log.Journal)
    (r : Request) : ∃ reply line,
      Exchange s.apiKey (f.routed s.routes) j.now freshId r (f.path? r) reply line ∧
      s.answer f freshId j r = .ok (reply, j.reporting line.toList) := by
  have hid := identifies_broughtId? freshId r
  unfold answer traced
  cases hpath : f.path? r with
  | none =>
    refine ⟨none, none, .untold, ?_⟩
    rw [Option.toList_none, Log.Journal.reporting_nil]
    rfl
  | some path =>
    by_cases haway : TurnedAway s.apiKey path r
    · rw [guarded_of_turnedAway hpath haway]
      dsimp only [Option.map_some, Option.getD_some]
      rw [record_exchangeEvent j _ path r Response.unauthorized.threeDigits]
      exact ⟨_, _, .turnedAway haway hid (marked_withHeader _ _), rfl⟩
    · rw [guarded_of_not_turnedAway hpath haway]
      cases hbehind : f.routed s.routes r with
      | none =>
        dsimp only [Option.map_none, Option.getD_none]
        rw [record_exchangeEvent j _ path r (by decide)]
        exact ⟨_, _, .failed haway hbehind hid, rfl⟩
      | some response =>
        dsimp only [Option.map_some, Option.getD_some]
        rw [record_exchangeEvent j _ path r response.threeDigits]
        exact ⟨_, _, .answered haway hbehind hid (marked_withHeader _ _), rfl⟩

/-- Answers requests one after another, each with the identifier that is generated for it. -/
def answerAll (s : Service) (f : Framework) : Log.Journal → List (String × Request) →
    Result (List (Option Response) × Log.Journal)
  | j, [] => .ok ([], j)
  | j, (freshId, r) :: requests => do
    let (reply, j) ← s.answer f freshId j r
    let (replies, j) ← answerAll s f j requests
    return (reply :: replies, j)

/-- Every request is one exchange, and the lines are those of the exchanges in their order. -/
theorem exchanges_of_answerAll (s : Service) (f : Framework) (j : Log.Journal)
    (requests : List (String × Request)) : ∃ outcomes,
      List.Forall₂ (fun x y =>
        Exchange s.apiKey (f.routed s.routes) j.now x.1 x.2 (f.path? x.2) y.1 y.2)
        requests outcomes ∧
      s.answerAll f j requests =
        .ok (outcomes.map Prod.fst, j.reporting (outcomes.filterMap Prod.snd)) := by
  induction requests generalizing j with
  | nil => exact ⟨[], .nil, by simp [answerAll]⟩
  | cons x requests ih =>
    obtain ⟨freshId, r⟩ := x
    obtain ⟨reply, line, hexchange, hanswer⟩ := exchange_of_answer s f freshId j r
    -- a line in the journal changes neither its clock nor its threshold
    obtain ⟨outcomes, hexchanges, hrest⟩ := ih (j.reporting line.toList)
    refine ⟨(reply, line) :: outcomes, .cons hexchange hexchanges, ?_⟩
    rw [answerAll, hanswer, Result.ok_bind]
    dsimp only
    rw [hrest, Result.ok_bind, Log.Journal.reporting_reporting]
    cases line <;> rfl

/-! ## The guard by the status of the response -/

/-- The status of a request without authorization comes from nowhere. -/
def NeverUnauthorized (next : Responder) : Prop :=
  ∀ r response, next r = some response → response.status ≠ 401

/-- Neither the places of the service nor others that requests are routed to answer so. -/
theorem neverUnauthorized_router (s : Service) : NeverUnauthorized (router.routed s.routes) := by
  intro r response hresponse
  obtain rfl := Option.some.inj hresponse
  cases hfound : found? s.routes r.path with
  | none =>
    dsimp only
    split
    · exact (by decide : (307 : Nat) ≠ 401)
    · exact (by decide : (404 : Nat) ≠ 401)
  | some found =>
    obtain ⟨route, hroute, rfl⟩ := Option.map_eq_some_iff.mp hfound
    have hstatus : route.found.status = 200 := by
      have hmem := List.mem_of_find?_eq_some hroute
      simp only [routes, List.mem_cons, List.not_mem_nil, or_false] at hmem
      rcases hmem with rfl | rfl <;> rfl
    dsimp only
    split
    · rw [hstatus]
      decide
    · exact (by decide : (405 : Nat) ≠ 401)

/-- Where nothing behind the guard answers so, the status tells whom the guard turned away. -/
theorem Exchange.status_eq_401_iff {key : String} {behind : Responder} {now : Binary64}
    {told : Option String} {reply : Response} {line : Option String}
    (hbehind : NeverUnauthorized behind)
    (h : Exchange key behind now freshId r told (some reply) line) :
    reply.status = 401 ↔ ∃ path, told = some path ∧ TurnedAway key path r := by
  cases h with
  | turnedAway haway _ hreply => exact iff_of_true hreply.status ⟨_, rfl, haway⟩
  | answered haway hresponse _ hreply =>
    refine iff_of_false ?_ ?_
    · rw [hreply.status]
      exact hbehind r _ hresponse
    · rintro ⟨_, htold, h⟩
      exact haway (Option.some.inj htold ▸ h)

/-! ## The journal of a service -/

/-- The threshold is the one that a level asks for, or else the one that was there. -/
structure Sets (level : Value) (before after : Log.Journal) : Prop where
  given : level.truthy = true → Log.Journal.thresholdOf level = .ok after.threshold
  kept : level.truthy = false → after.threshold = before.ready.threshold

theorem Sets.of_configure {level : Value} {journal later : Log.Journal}
    (h : journal.configure level = (.ok (), later)) : Sets level journal later := by
  unfold Log.Journal.configure at h
  constructor
  · intro hlevel
    simp only [hlevel, ↓reduceIte] at h
    split at h
    · rename_i t ht
      cases h
      exact ht
    · cases h
  · intro hlevel
    simp only [hlevel, Bool.false_eq_true, ↓reduceIte] at h
    cases h
    rfl

variable {settings : Settings} {journal started : Log.Journal} {entities : Result (List Entity)}
  {supply : Result (Supply σ)} {extensions : List Schema.Extension}
  {custom : Result (List CustomResolvers)}

/-- What was started has the key of the settings and the threshold that they ask for. -/
theorem start_eq_ok
    (h : start settings journal entities supply extensions custom = (.ok s, started)) :
    s.apiKey = settings.apiKey ∧ Sets settings.logLevel journal started := by
  unfold start at h
  rcases hconfigure : journal.configure settings.logLevel with ⟨configured, later⟩
  rw [hconfigure] at h
  dsimp only at h
  split at h
  · rename_i hstarted
    cases h
    obtain ⟨_, hconfigured, hstarted⟩ := Result.bind_eq_ok.mp hstarted
    obtain ⟨_, -, hstarted⟩ := Result.bind_eq_ok.mp hstarted
    obtain ⟨_, -, hstarted⟩ := Result.bind_eq_ok.mp hstarted
    obtain ⟨_, -, hstarted⟩ := Result.bind_eq_ok.mp hstarted
    obtain ⟨_, -, hstarted⟩ := Result.bind_eq_ok.mp hstarted
    obtain ⟨_, hrecord, hstarted⟩ := Result.bind_eq_ok.mp hstarted
    cases hstarted
    have hsets := Sets.of_configure (hconfigured ▸ hconfigure)
    have hthreshold := (Log.Journal.alike_of_record hrecord).threshold
    refine ⟨rfl, fun hlevel => ?_, fun hlevel => ?_⟩
    · rw [hthreshold]
      exact hsets.given hlevel
    · rw [hthreshold]
      exact hsets.kept hlevel
  · cases h

theorem exists_start
    (h : (start settings journal entities supply extensions custom).1.isOk = true) :
    ∃ s started, start settings journal entities supply extensions custom = (.ok s, started) := by
  obtain ⟨s, hs⟩ := Result.exists_of_isOk h
  exact ⟨s, _, Prod.ext hs rfl⟩

/-- **Every exchange is guarded and marked, and reported where the threshold lets it be.** Whatever
the service is started with and whatever web framework it runs in, each request of a series ends in
one of the ways of `Exchange`, by the path that the framework tells of it; of a plain request that is
the path of its target, if the framework tells paths as it should. The lines of the exchanges are
added to the journal in their order, or none at all if the level of the settings is too high for
them. Where nothing behind the guard answers with the status 401, just the requests that the guard
turns away have it. -/
theorem exchanges_guarded_and_reported
    (hstart : start settings journal entities supply extensions custom = (.ok s, started))
    (f : Framework) (requests : List (String × Request)) :
    Sets settings.logLevel journal started ∧
    ∃ outcomes,
      List.Forall₂ (fun x y =>
        Exchange settings.apiKey (f.routed s.routes) started.now x.1 x.2 (f.path? x.2) y.1 y.2 ∧
        (f.TellsTargets → x.2.Plain → Exchange settings.apiKey (f.routed s.routes) started.now
          x.1 x.2 (some x.2.path) y.1 y.2) ∧
        (NeverUnauthorized (f.routed s.routes) → ∀ reply, y.1 = some reply →
          (reply.status = 401 ↔
            ∃ path, f.path? x.2 = some path ∧ TurnedAway settings.apiKey path x.2)))
        requests outcomes ∧
      s.answerAll f started requests =
        .ok (outcomes.map Prod.fst, started.reporting (outcomes.filterMap Prod.snd)) := by
  obtain ⟨hkey, hsets⟩ := start_eq_ok hstart
  obtain ⟨outcomes, hexchanges, hrun⟩ := exchanges_of_answerAll s f started requests
  refine ⟨hsets, outcomes, ?_, hrun⟩
  rw [hkey] at hexchanges
  refine hexchanges.imp fun x y hexchange => ⟨hexchange, fun htells hplain => ?_,
    fun hbehind reply hreply => ?_⟩
  · rw [← htells x.2 hplain]
    exact hexchange
  · rw [hreply] at hexchange
    exact hexchange.status_eq_401_iff hbehind

/-- Of a wrong key before the right one only the first counts, and a place that is open to all needs
none; both exchanges are reported. -/
theorem exchanges_guarded_and_reported_of_tags :
    let settings : Settings := { apiKey := "secret" }
    let tag : Entity := ⟨"Tag", [("label", { type := .text "STRING" })], .null⟩
    let stores : Supply MemoryStore := .table [("Tag", .empty "id")]
    let health : Request := ⟨"GET", "/healthz", [("Host", "localhost:8000")]⟩
    let wrong : Request := ⟨"POST", "/graphql", [("X-API-Key", "Secret"), ("x-api-key", "secret")]⟩
    ∃ s started outcomes,
      start settings {} (.ok [tag]) (.ok stores) [] (.ok []) = (.ok s, started) ∧
      router.TellsTargets ∧ health.Plain ∧ wrong.Plain ∧ NeverUnauthorized (router.routed s.routes) ∧
      ¬TurnedAway "secret" health.path health ∧ TurnedAway "secret" wrong.path wrong ∧
      List.Forall₂ (fun x y =>
        Exchange "secret" (router.routed s.routes) started.now x.1 x.2 (some x.2.path) y.1 y.2)
        [("a", health), ("b", wrong)] outcomes ∧
      s.answerAll router started [("a", health), ("b", wrong)] =
        .ok (outcomes.map Prod.fst,
          { started with lines := started.lines ++ outcomes.filterMap Prod.snd }) := by
  intro settings tag stores health wrong
  obtain ⟨s, started, hstart⟩ := exists_start (by decide +kernel :
    (start settings {} (.ok [tag]) (.ok stores) [] (.ok [])).1.isOk = true)
  obtain ⟨hsets, outcomes, hexchanges, hrun⟩ := exchanges_guarded_and_reported hstart
    router [("a", health), ("b", wrong)]
  have hthreshold : Value.int Log.info = started.threshold :=
    Except.ok.inj (hsets.given (by decide))
  have hadmits : started.admits Log.info = true :=
    Log.Journal.admits_info_of_threshold hthreshold.symm (by decide)
  have hhealth : health.Plain := by
    refine ⟨⟨"healthz".toList, by decide, by decide⟩, forall_of_all (by decide +kernel),
      by decide +kernel, ?_⟩
    intro host hbrings
    have hheader : health.header? "host" = some "localhost:8000" := by decide +kernel
    rw [← Request.header?_eq_some_iff, hheader] at hbrings
    cases hbrings
    exact forall_of_all (by decide +kernel)
  have hwrong : wrong.Plain := by
    refine ⟨⟨"graphql".toList, by decide, by decide⟩, forall_of_all (by decide +kernel),
      by decide +kernel, ?_⟩
    intro host hbrings
    have hheader : wrong.header? "host" = none := by decide +kernel
    rw [← Request.header?_eq_some_iff, hheader] at hbrings
    cases hbrings
  have haway : TurnedAway "secret" wrong.path wrong := turnedAway_iff.mpr (by decide +kernel)
  have hopen : ¬TurnedAway "secret" health.path health := fun h => h.notHealth (by decide)
  obtain _ | ⟨⟨_, hfirst, _⟩, _ | ⟨⟨_, hsecond, _⟩, ⟨⟩⟩⟩ := hexchanges
  refine ⟨s, started, _, hstart, router_tellsTargets, hhealth, hwrong, neverUnauthorized_router s,
    hopen, haway, .cons (hfirst router_tellsTargets hhealth)
      (.cons (hsecond router_tellsTargets hwrong) .nil), ?_⟩
  rw [hrun, Log.Journal.reporting_of_admits hadmits]

/-- Two exchanges that no line reports. The settings of the one ask for warnings only; the address of
the other makes no sense, and there is no response either. -/
theorem exchanges_unreported :
    let tag : Entity := ⟨"Tag", [("label", { type := .text "STRING" })], .null⟩
    let stores : Supply MemoryStore := .table [("Tag", .empty "id")]
    (∃ s started reply,
      start { logLevel := .text "WARNING" } {} (.ok [tag]) (.ok stores) [] (.ok []) =
        (.ok s, started) ∧
      s.answer router "a" started ⟨"GET", "/healthz", []⟩ = .ok (some reply, started) ∧
      reply.status = 200) ∧
    ∃ s started, start {} {} (.ok [tag]) (.ok stores) [] (.ok []) = (.ok s, started) ∧
      s.answer router "b" started ⟨"GET", "/healthz", [("host", "[")]⟩ = .ok (none, started) := by
  intro tag stores
  constructor
  · obtain ⟨s, started, hstart⟩ := exists_start (by decide +kernel :
      (start { logLevel := .text "WARNING" } {} (.ok [tag]) (.ok stores) [] (.ok [])).1.isOk = true)
    obtain ⟨-, hsets⟩ := start_eq_ok hstart
    have hthreshold : Value.int Log.warning = started.threshold :=
      Except.ok.inj (hsets.given (by decide))
    have hadmits : started.admits Log.info = false :=
      Log.Journal.admits_info_of_threshold hthreshold.symm (by decide)
    obtain ⟨reply, line, hexchange, hanswer⟩ :=
      exchange_of_answer s router "a" started ⟨"GET", "/healthz", []⟩
    rw [Log.Journal.reporting_of_not_admits hadmits] at hanswer
    have htold : router.path? ⟨"GET", "/healthz", []⟩ = some healthPath := by decide +kernel
    have hplace : router.routed s.routes ⟨"GET", "/healthz", []⟩ =
        some (.ok (Json.object [("ok", .bool true),
          ("entities", .number (toString s.entityCount))]).dense) := by
      have hpath : (⟨"GET", "/healthz", []⟩ : Request).path = healthPath := by decide
      simp [router, found?, routes, hpath]
    rw [htold] at hexchange
    cases hexchange with
    | turnedAway haway => exact absurd rfl haway.notHealth
    | answered _ hbehind _ hreply =>
      obtain rfl := Option.some.inj (hbehind.symm.trans hplace)
      exact ⟨s, started, _, hstart, hanswer, hreply.status⟩
    | failed _ hbehind => cases hbehind.symm.trans hplace
  · obtain ⟨s, started, hstart⟩ := exists_start (by decide +kernel :
      (start {} {} (.ok [tag]) (.ok stores) [] (.ok [])).1.isOk = true)
    obtain ⟨reply, line, hexchange, hanswer⟩ :=
      exchange_of_answer s router "b" started ⟨"GET", "/healthz", [("host", "[")]⟩
    have htold : router.path? ⟨"GET", "/healthz", [("host", "[")]⟩ = none := by decide +kernel
    rw [htold] at hexchange
    cases hexchange with
    | untold =>
      rw [Option.toList_none, Log.Journal.reporting_nil] at hanswer
      exact ⟨s, started, hstart, hanswer⟩

end Service

end EntityApi
