import ScoutEngine.Api.Auth
import ScoutEngine.Lib.Table

/-!
# The middleware on one request

`ApiKeyMiddleware.dispatch` with two queries that may fail.

* `KeyTable`, `Verdict`, `dispatch`; `dispatch_goesOn`: the transition system does the same.
* `Opens`, `Allowed`: when the handler may be called; `FailsClosed`: it is called then only, and
  everything else is refused with a status.
* `Escapes`: the comparison or the look-up raises; **`failsClosed_iff`**.
* `token_escapes`: a token with a letter outside ASCII, and a database that fails.
-/

set_option autoImplicit false

namespace ScoutEngine

open Transition

/-! ## Decisions -/

/-- The table of keys, whose hashes are unique, and the queries that fail. -/
structure KeyTable where
  keys : List ApiKey
  unique : (keys.map ApiKey.keyHash).Nodup
  countFails : Bool := false
  lookUpFails : Bool := false

/-- How the check of a request ends. -/
inductive Verdict where
  | handled (caller : Caller)
  | refused (status : ℕ) (detail : String)
  | raised (e : PyExc)
  deriving DecidableEq

/-- `_has_any_db_keys`; `none` when the database is unreachable. -/
def KeyTable.hasAnyDbKeys (db : KeyTable) : Option Bool :=
  if db.countFails then none else some !db.keys.isEmpty

/-- `_lookup_key`; the exception stands for any that the driver raises. -/
def KeyTable.lookupKey (cfg : AuthConfig) (db : KeyTable) (rawToken : String) :
    Except PyExc (Option ApiKey) :=
  if db.lookUpFails then .error ⟨.other, "connection refused"⟩
  else .ok (db.keys.find? (·.keyHash = cfg.hashKey rawToken))

/-- The check of the database keys. -/
def checkDatabase (cfg : AuthConfig) (db : KeyTable) (token : String) : Verdict :=
  match db.lookupKey cfg token with
  | .error e => .raised e
  | .ok none => .refused 403 "Invalid API key"
  | .ok (some row) =>
    if row.revoked then .refused 403 "API key has been revoked"
    else .handled (.key row.id row.isAdmin)

/-- `dispatch` from the `Authorization` header on. -/
def checkHeader (cfg : AuthConfig) (db : KeyTable) (authorization : Option String) : Verdict :=
  match bearer authorization with
  | .error (status, detail) => .refused status detail
  | .ok token =>
    if cfg.apiKey = "" then checkDatabase cfg db token
    else
      match compareDigest token cfg.apiKey with
      | none =>
        .raised ⟨.typeError, "comparing strings with non-ASCII characters is not supported"⟩
      | some true => .handled .legacy
      | some false => checkDatabase cfg db token

/-- **`ApiKeyMiddleware.dispatch`**, up to the call of the handler. -/
def dispatch (cfg : AuthConfig) (db : KeyTable) (path : String) (authorization : Option String) :
    Verdict :=
  if path ∈ publicPaths then .handled .anonymous
  else if cfg.apiKey = "" then
    match db.hasAnyDbKeys with
    | none => .refused 503 "Auth service unavailable"
    | some false => .handled .anonymous
    | some true => checkHeader cfg db authorization
  else checkHeader cfg db authorization

/-! ## The same in the system -/

/-- Where a request is after its verdict. -/
def Verdict.exchange (request : HttpRequest) : Verdict → Exchange
  | handled caller => { request := request, phase := .handling, caller := some caller }
  | refused status detail => { request := request, phase := .answered status detail }
  | raised _ => { request := request, phase := .answered 500 "Internal Server Error" }

/-- An action of the middleware on a request. -/
def AuthAct.OfMiddleware (k : ℕ) (request : HttpRequest) : AuthAct → Prop
  | .arrive j r => j = k ∧ r = request
  | .count j | .lookUp j | .fail j => j = k
  | _ => False

/-- **A run goes on** by actions of the middleware on a request. -/
def GoesOn (cfg : AuthConfig) (k : ℕ) (request : HttpRequest) (s s' : AuthState) : Prop :=
  ∀ h, (authService cfg).Run h s → ∃ h', (∀ e ∈ h', e.2.OfMiddleware k request) ∧
    (authService cfg).Run (h' ++ h) s'

section System

variable {cfg : AuthConfig} {db : KeyTable} {s s' s'' : AuthState} {k : ℕ} {request : HttpRequest}

theorem GoesOn.refl : GoesOn cfg k request s s := fun _ hr =>
  ⟨[], fun _ he => absurd he List.not_mem_nil, hr⟩

theorem GoesOn.step {a : AuthAct} (ha : a.OfMiddleware k request)
    (hs : AuthState.step cfg s a = some s') (h : GoesOn cfg k request s' s'') :
    GoesOn cfg k request s s'' := by
  intro hist hr
  obtain ⟨h', hacts, hr'⟩ := h _ (hr.step hs)
  refine ⟨h' ++ [(s, a)], fun e he => ?_, ?_⟩
  · rcases List.mem_append.mp he with he | he
    · exact hacts e he
    · rw [List.mem_singleton.mp he]
      exact ha
  · rw [List.append_assoc]
    exact hr'

@[simp] theorem put_put (s : AuthState) (k : ℕ) (c c' : Exchange) :
    (s.put k c).put k c' = s.put k c' := by
  unfold AuthState.put
  rw [Function.update_idem]

@[simp] theorem put_calls (s : AuthState) (k : ℕ) (c : Exchange) : (s.put k c).calls k = some c :=
  Function.update_self _ _ _

/-- The look-up of a token. -/
theorem lookUp_goesOn (hkeys : s.keys = db.keys) (token : String) :
    GoesOn cfg k request (s.put k { request := request, phase := .lookingUp token })
      (s.put k ((checkDatabase cfg db token).exchange request)) := by
  have hput : (s.put k { request := request, phase := .lookingUp token }).keys = db.keys := hkeys
  unfold checkDatabase KeyTable.lookupKey
  cases hfails : db.lookUpFails with
  | true =>
    refine GoesOn.step (a := .fail k) rfl ?_ GoesOn.refl
    simp [AuthState.step, AuthState.rollback, Exchange.answer, Verdict.exchange]
  | false =>
    refine GoesOn.step (a := .lookUp k) rfl ?_ GoesOn.refl
    simp only [AuthState.step, put_calls, Option.bind_eq_bind, Option.bind_some, AuthState.lookUp,
      hput]
    cases db.keys.find? (·.keyHash = cfg.hashKey token) with
    | none => simp [Exchange.answer, Verdict.exchange]
    | some row =>
      cases hrevoked : row.revoked <;>
        simp [hrevoked, Exchange.answer, Exchange.authorize, Verdict.exchange]

/-- The middleware from the header on. -/
theorem authenticate_goesOn (hkeys : s.keys = db.keys) :
    GoesOn cfg k request (s.put k (.authenticate cfg request))
      (s.put k ((checkHeader cfg db request.authorization).exchange request)) := by
  unfold Exchange.authenticate checkHeader
  rcases bearer request.authorization with ⟨status, detail⟩ | token
  · exact GoesOn.refl
  · dsimp only
    by_cases hkey : cfg.apiKey = ""
    · rw [if_pos hkey, if_pos hkey]
      exact lookUp_goesOn hkeys token
    · rw [if_neg hkey, if_neg hkey]
      rcases compareDigest token cfg.apiKey with _ | _ | _
      · exact GoesOn.refl
      · exact lookUp_goesOn hkeys token
      · exact GoesOn.refl

/-- **The system does with a new request what `dispatch` decides.** -/
theorem dispatch_goesOn (hnew : s.calls k = none) (hkeys : s.keys = db.keys) :
    GoesOn cfg k request s (s.put k
      ((dispatch cfg db (request.urlPath cfg) request.authorization).exchange request)) := by
  have harrive : AuthState.step cfg s (.arrive k request) = some (s.put k (.enter cfg request)) := by
    simp only [AuthState.step, hnew]
  refine GoesOn.step (a := .arrive k request) ⟨rfl, rfl⟩ harrive ?_
  unfold Exchange.enter dispatch
  by_cases hpublic : request.urlPath cfg ∈ publicPaths
  · rw [if_pos hpublic, if_pos hpublic]
    exact GoesOn.refl
  · rw [if_neg hpublic, if_neg hpublic]
    by_cases hkey : cfg.apiKey = ""
    · rw [if_pos hkey, if_pos hkey]
      unfold KeyTable.hasAnyDbKeys
      cases hfails : db.countFails with
      | true =>
        refine GoesOn.step (a := .fail k) rfl ?_ GoesOn.refl
        simp [AuthState.step, Exchange.answer, Verdict.exchange]
      | false =>
        have hcount : ∀ s' : AuthState, AuthState.count cfg (s.put k
            { request := request, phase := .counting }) k
            { request := request, phase := .counting } = s' →
            AuthState.step cfg (s.put k { request := request, phase := .counting }) (.count k) =
              some s' := by
          rintro _ rfl
          simp [AuthState.step]
        have hput : (s.put k { request := request, phase := .counting }).keys = db.keys := hkeys
        by_cases hempty : db.keys = []
        · refine GoesOn.step (a := .count k) rfl (hcount _ rfl) ?_
          simp only [AuthState.count, hput, hempty, if_true, put_put]
          simpa [Exchange.authorize, Verdict.exchange] using GoesOn.refl
        · refine GoesOn.step (a := .count k) rfl (hcount _ rfl) ?_
          have hfull : db.keys.isEmpty = false := List.isEmpty_eq_false_iff.mpr hempty
          simp only [AuthState.count, hput, hempty, if_false, put_put, hfull]
          exact authenticate_goesOn hkeys
    · rw [if_neg hkey, if_neg hkey]
      exact authenticate_goesOn hkeys

end System

/-! ## Headers and texts -/

/-- A text is split at its first space. -/
theorem splitMax_one {cs : List Char} {scheme token : String} :
    splitMax ' ' 1 cs = [scheme, token] ↔
      ' ' ∉ scheme.toList ∧ cs = scheme.toList ++ ' ' :: token.toList := by
  constructor
  · intro h
    have hcs := List.takeWhile_append_dropWhile (p := fun c => decide (c ≠ ' ')) (l := cs)
    rw [splitMax] at h
    cases hdrop : cs.dropWhile (· ≠ ' ') with
    | nil =>
      rw [hdrop] at h
      cases h
    | cons c rest =>
      have hc : c = ' ' := by
        have hhead := List.head?_dropWhile_not (fun c => decide (c ≠ ' ')) cs
        rw [hdrop] at hhead
        simpa using hhead
      rw [hdrop] at h
      obtain ⟨rfl, hrest⟩ := List.cons.inj h
      rw [splitMax] at hrest
      obtain rfl := (List.cons.inj hrest).1
      rw [hdrop, hc] at hcs
      simp only [String.toList_ofList]
      refine ⟨fun hmem => ?_, hcs.symm⟩
      have hall := List.all_takeWhile (p := fun c => decide (c ≠ ' ')) (l := cs)
      exact of_decide_eq_true (List.all_eq_true.mp hall _ hmem) rfl
  · rintro ⟨hscheme, rfl⟩
    have hpos : ∀ c ∈ scheme.toList, decide (c ≠ ' ') = true := fun c hc =>
      decide_eq_true fun he => hscheme (he ▸ hc)
    rw [splitMax, List.dropWhile_append_of_pos hpos, List.takeWhile_append_of_pos hpos]
    simp [splitMax]

/-- **A header carries a bearer token** iff it is `Bearer`, a space and the token. -/
theorem bearer_ok_iff {authorization : Option String} {token : String} :
    bearer authorization = .ok token ↔ authorization = some ("Bearer " ++ token) := by
  have hspace : ' ' ∉ "Bearer".toList := by decide
  constructor
  · intro h
    unfold bearer at h
    dsimp only at h
    split_ifs at h with hempty
    cases hheader : authorization with
    | none => exact absurd (by rw [hheader]; rfl) hempty
    | some header =>
      rw [hheader, Option.getD_some] at h
      split at h
      case h_1 scheme token' hsplit =>
        split_ifs at h with hscheme
        obtain rfl := Except.ok.inj h
        obtain ⟨-, hcs⟩ := splitMax_one.mp hsplit
        rw [hscheme] at hcs
        rw [Option.some.injEq, ← String.toList_inj, hcs, String.toList_append]
        rfl
      case h_2 => cases h
  · rintro rfl
    have hsplit : splitMax ' ' 1 ("Bearer " ++ token).toList = ["Bearer", token] := by
      refine splitMax_one.mpr ⟨hspace, ?_⟩
      rw [String.toList_append]
      rfl
    have hne : "Bearer " ++ token ≠ "" := by
      intro he
      have := congrArg String.length he
      simp at this
    unfold bearer
    simp only [Option.getD_some]
    rw [if_neg hne, hsplit]
    rfl

/-- All characters are ASCII. -/
def IsAscii (text : String) : Prop := ∀ c ∈ text.toList, c.toNat < 128

instance (text : String) : Decidable (IsAscii text) :=
  inferInstanceAs (Decidable (∀ c ∈ text.toList, c.toNat < 128))

theorem compareDigest_eq (a b : String) :
    compareDigest a b = if IsAscii a ∧ IsAscii b then some (decide (a = b)) else none := by
  have hall : ((a.toList ++ b.toList).all fun c => decide (c.toNat < 128)) = true ↔
      IsAscii a ∧ IsAscii b := by
    simp [IsAscii, List.all_append]
  unfold compareDigest
  by_cases h : IsAscii a ∧ IsAscii b
  · rw [if_pos (hall.mpr h), if_pos h]
  · rw [if_neg fun h' => h (hall.mp h'), if_neg h]

/-! ## When the handler is called -/

section FailsClosed

variable (cfg : AuthConfig) (db : KeyTable) (path : String) (authorization : Option String)

/-- The queries that a check makes succeed. -/
def KeyTable.Readable : Prop :=
  db.lookUpFails = false ∧ (cfg.apiKey = "" → db.countFails = false)

/-- **A token opens the door**: it is the static key, or its hash is that of a readable key which
is not revoked. -/
def Opens (token : String) : Prop :=
  cfg.apiKey ≠ "" ∧ token = cfg.apiKey ∨ db.Readable cfg ∧
    ∃ row ∈ db.keys, row.keyHash = cfg.hashKey token ∧ row.revoked = false

/-- **The handler may be called**: the path is public; or there is no static key, and the table is
readable and empty; or the token opens the door. -/
def Allowed : Prop :=
  path ∈ publicPaths ∨ cfg.apiKey = "" ∧ db.countFails = false ∧ db.keys = [] ∨
    ∃ token, authorization = some ("Bearer " ++ token) ∧ Opens cfg db token

/-- The request gets as far as its token. -/
def Presents (token : String) : Prop :=
  path ∉ publicPaths ∧ (cfg.apiKey = "" → db.countFails = false ∧ db.keys ≠ []) ∧
    authorization = some ("Bearer " ++ token)

/-- **The check is total and fails closed.** -/
structure FailsClosed : Prop where
  handled : (∃ caller, dispatch cfg db path authorization = .handled caller) ↔
    Allowed cfg db path authorization
  refused : ¬ Allowed cfg db path authorization → ∃ status detail,
    dispatch cfg db path authorization = .refused status detail ∧
      (status = 401 ∨ status = 403 ∨ status = 503)
  noCount : path ∉ publicPaths → cfg.apiKey = "" → db.countFails = true →
    ∃ detail, dispatch cfg db path authorization = .refused 503 detail
  noLookUp : ∀ token, Presents cfg db path authorization token →
    (cfg.apiKey ≠ "" → token ≠ cfg.apiKey) → db.lookUpFails = true →
      ∃ detail, dispatch cfg db path authorization = .refused 503 detail

/-- **The check raises**: the static key is compared with a token and one of the two is not ASCII,
or the look-up of another token fails. -/
def Escapes : Prop :=
  ∃ token, Presents cfg db path authorization token ∧
    (cfg.apiKey ≠ "" ∧ ¬ (IsAscii token ∧ IsAscii cfg.apiKey) ∨
      (cfg.apiKey ≠ "" → token ≠ cfg.apiKey) ∧ db.lookUpFails = true)

end FailsClosed

section Verdicts

variable {cfg : AuthConfig} {db : KeyTable} {path token : String} {authorization : Option String}

/-- A key is found that is not revoked, or the token is refused. -/
theorem checkDatabase_spec (hreads : db.lookUpFails = false) :
    (∃ caller, checkDatabase cfg db token = .handled caller) ∧
        (∃ row ∈ db.keys, row.keyHash = cfg.hashKey token ∧ row.revoked = false) ∨
      (∃ detail, checkDatabase cfg db token = .refused 403 detail) ∧
        ¬ ∃ row ∈ db.keys, row.keyHash = cfg.hashKey token ∧ row.revoked = false := by
  unfold checkDatabase KeyTable.lookupKey
  rw [hreads, if_neg Bool.false_ne_true]
  cases hfind : db.keys.find? (·.keyHash = cfg.hashKey token) with
  | none =>
    refine Or.inr ⟨⟨_, rfl⟩, ?_⟩
    rintro ⟨row, hrow, hhash, -⟩
    rw [(Table.find_iff db.unique).mpr ⟨hrow, hhash⟩] at hfind
    cases hfind
  | some row =>
    obtain ⟨hrow, hhash⟩ := (Table.find_iff db.unique).mp hfind
    dsimp only
    cases hrevoked : row.revoked with
    | false => exact Or.inl ⟨⟨_, rfl⟩, row, hrow, hhash, hrevoked⟩
    | true =>
      refine Or.inr ⟨⟨_, rfl⟩, ?_⟩
      rintro ⟨row', hrow', hhash', hlive⟩
      rw [(Table.find_iff db.unique).mpr ⟨hrow', hhash'⟩] at hfind
      rw [Option.some.inj hfind, hrevoked] at hlive
      cases hlive

theorem checkDatabase_raises (hfails : db.lookUpFails = true) :
    ∃ e, checkDatabase cfg db token = .raised e := by
  unfold checkDatabase KeyTable.lookupKey
  rw [hfails, if_pos rfl]
  exact ⟨_, rfl⟩

/-- What `dispatch` does with a token. -/
theorem checkHeader_bearer (cfg : AuthConfig) (db : KeyTable) (token : String) :
    checkHeader cfg db (some ("Bearer " ++ token)) =
      if cfg.apiKey = "" then checkDatabase cfg db token
      else if IsAscii token ∧ IsAscii cfg.apiKey then
        if token = cfg.apiKey then .handled .legacy else checkDatabase cfg db token
      else .raised ⟨.typeError, "comparing strings with non-ASCII characters is not supported"⟩ := by
  unfold checkHeader
  simp only [bearer_ok_iff.mpr rfl, compareDigest_eq]
  by_cases hascii : IsAscii token ∧ IsAscii cfg.apiKey
  · by_cases heq : token = cfg.apiKey <;> simp [hascii, heq]
  · simp [hascii]

theorem checkHeader_none (hno : ∀ token, authorization ≠ some ("Bearer " ++ token)) :
    ∃ detail, checkHeader cfg db authorization = .refused 401 detail := by
  unfold checkHeader
  cases hb : bearer authorization with
  | ok token => exact absurd (bearer_ok_iff.mp hb) (hno token)
  | error e =>
    have hstatus : e.1 = 401 := by
      unfold bearer at hb
      dsimp only at hb
      split_ifs at hb
      · rw [← Except.error.inj hb]
      · split at hb
        · split_ifs at hb
          rw [← Except.error.inj hb]
        · rw [← Except.error.inj hb]
    dsimp only
    rw [hstatus]
    exact ⟨e.2, rfl⟩

/-- A request that gets as far as its header is decided there. -/
theorem dispatch_checkHeader (hpublic : path ∉ publicPaths)
    (hcount : cfg.apiKey = "" → db.countFails = false ∧ db.keys ≠ []) :
    dispatch cfg db path authorization = checkHeader cfg db authorization := by
  unfold dispatch
  rw [if_neg hpublic]
  by_cases hkey : cfg.apiKey = ""
  · obtain ⟨hfails, hne⟩ := hcount hkey
    have hfull : db.keys.isEmpty = false := List.isEmpty_eq_false_iff.mpr hne
    rw [if_pos hkey, KeyTable.hasAnyDbKeys, hfails, hfull]
    rfl
  · exact if_neg hkey

/-- **The check raises** in these two cases. -/
theorem Escapes.raised (h : Escapes cfg db path authorization) :
    ∃ e, dispatch cfg db path authorization = .raised e := by
  obtain ⟨token, ⟨hpublic, hcount, rfl⟩, h⟩ := h
  rw [dispatch_checkHeader hpublic hcount, checkHeader_bearer]
  rcases h with ⟨hkey, hascii⟩ | ⟨hother, hfails⟩
  · rw [if_neg hkey, if_neg hascii]
    exact ⟨_, rfl⟩
  · split_ifs with hkey hascii heq
    · exact checkDatabase_raises hfails
    · exact absurd heq (hother hkey)
    · exact checkDatabase_raises hfails
    · exact ⟨_, rfl⟩

/-- Nothing escapes: a request with a token is decided as it should be. -/
theorem checkHeader_spec (hpublic : path ∉ publicPaths)
    (hcount : cfg.apiKey = "" → db.countFails = false ∧ db.keys ≠ [])
    (hno : ¬ Escapes cfg db path (some ("Bearer " ++ token))) :
    (∃ caller, checkHeader cfg db (some ("Bearer " ++ token)) = .handled caller) ∧
        Opens cfg db token ∨
      (∃ detail, checkHeader cfg db (some ("Bearer " ++ token)) = .refused 403 detail) ∧
        ¬ Opens cfg db token := by
  have hpresents : Presents cfg db path (some ("Bearer " ++ token)) token := ⟨hpublic, hcount, rfl⟩
  by_cases hstatic : cfg.apiKey ≠ "" ∧ token = cfg.apiKey
  · obtain ⟨hkey, heq⟩ := hstatic
    have hascii : IsAscii token ∧ IsAscii cfg.apiKey := by
      by_contra hascii
      exact hno ⟨token, hpresents, Or.inl ⟨hkey, hascii⟩⟩
    rw [checkHeader_bearer, if_neg hkey, if_pos hascii, if_pos heq]
    exact Or.inl ⟨⟨_, rfl⟩, Or.inl ⟨hkey, heq⟩⟩
  · have hother : cfg.apiKey ≠ "" → token ≠ cfg.apiKey := fun hkey heq => hstatic ⟨hkey, heq⟩
    have hreads : db.lookUpFails = false := by
      rw [← Bool.not_eq_true]
      exact fun hfails => hno ⟨token, hpresents, Or.inr ⟨hother, hfails⟩⟩
    have hreadable : db.Readable cfg := ⟨hreads, fun hkey => (hcount hkey).1⟩
    have hdatabase : checkHeader cfg db (some ("Bearer " ++ token)) = checkDatabase cfg db token := by
      rw [checkHeader_bearer]
      split_ifs with hkey hascii heq
      · rfl
      · exact absurd heq (hother hkey)
      · rfl
      · exact absurd ⟨token, hpresents, Or.inl ⟨hkey, hascii⟩⟩ hno
    rw [hdatabase, Opens, or_iff_right hstatic, and_iff_right hreadable]
    exact checkDatabase_spec hreads

/-- Without its count the table lets nobody in. -/
theorem dispatch_noCount (hpublic : path ∉ publicPaths) (hkey : cfg.apiKey = "")
    (hfails : db.countFails = true) :
    dispatch cfg db path authorization = .refused 503 "Auth service unavailable" := by
  unfold dispatch
  rw [if_neg hpublic, if_pos hkey, KeyTable.hasAnyDbKeys, if_pos hfails]

/-- **The handler is called if it may be**, and only then, unless the check raises. -/
theorem dispatch_spec (hno : ¬ Escapes cfg db path authorization) :
    (∃ caller, dispatch cfg db path authorization = .handled caller) ∧
        Allowed cfg db path authorization ∨
      (∃ status detail, dispatch cfg db path authorization = .refused status detail ∧
        (status = 401 ∨ status = 403 ∨ status = 503)) ∧ ¬ Allowed cfg db path authorization := by
  by_cases hpublic : path ∈ publicPaths
  · refine Or.inl ⟨⟨.anonymous, ?_⟩, Or.inl hpublic⟩
    unfold dispatch
    exact if_pos hpublic
  by_cases hunread : cfg.apiKey = "" ∧ db.countFails = true
  · -- no branch of `Allowed` is left: none goes without the count
    obtain ⟨hkey, hfails⟩ := hunread
    refine Or.inr ⟨⟨503, _, dispatch_noCount hpublic hkey hfails, by simp⟩, ?_⟩
    simp [Allowed, Opens, KeyTable.Readable, hpublic, hkey, hfails]
  have hcount : cfg.apiKey = "" → db.countFails = false := fun hkey => by
    simpa [hkey] using hunread
  by_cases hopen : cfg.apiKey = "" ∧ db.keys = []
  · obtain ⟨hkey, hempty⟩ := hopen
    refine Or.inl ⟨⟨.anonymous, ?_⟩, Or.inr (Or.inl ⟨hkey, hcount hkey, hempty⟩)⟩
    simp [dispatch, KeyTable.hasAnyDbKeys, hpublic, hkey, hcount hkey, hempty]
  have hchecked : cfg.apiKey = "" → db.countFails = false ∧ db.keys ≠ [] := fun hkey =>
    ⟨hcount hkey, fun hempty => hopen ⟨hkey, hempty⟩⟩
  have hclosed : ¬ (cfg.apiKey = "" ∧ db.countFails = false ∧ db.keys = []) := by
    rintro ⟨hkey, -, hempty⟩
    exact hopen ⟨hkey, hempty⟩
  rw [dispatch_checkHeader hpublic hchecked, Allowed, or_iff_right hpublic, or_iff_right hclosed]
  by_cases hbearer : ∃ token, authorization = some ("Bearer " ++ token)
  · obtain ⟨token, rfl⟩ := hbearer
    have hsame : ∀ other, some ("Bearer " ++ token) = some ("Bearer " ++ other) ↔ other = token := by
      intro other
      rw [Option.some.injEq, String.append_right_inj]
      exact eq_comm
    simp only [hsame, exists_eq_left]
    rcases checkHeader_spec hpublic hchecked hno with h | ⟨⟨detail, hrefused⟩, hnot⟩
    · exact Or.inl h
    · exact Or.inr ⟨⟨403, detail, hrefused, by simp⟩, hnot⟩
  · have hnone : ∀ token, authorization ≠ some ("Bearer " ++ token) := fun token htoken =>
      hbearer ⟨token, htoken⟩
    obtain ⟨detail, hrefused⟩ : ∃ detail, checkHeader cfg db authorization = .refused 401 detail :=
      checkHeader_none hnone
    refine Or.inr ⟨⟨401, detail, hrefused, by simp⟩, ?_⟩
    rintro ⟨token, htoken, -⟩
    exact hbearer ⟨token, htoken⟩

/-- **Main result.** The check is total and fails closed iff it raises in none of the two cases. -/
theorem failsClosed_iff (cfg : AuthConfig) (db : KeyTable) (path : String)
    (authorization : Option String) :
    FailsClosed cfg db path authorization ↔ ¬ Escapes cfg db path authorization := by
  constructor
  · intro hclosed hescapes
    obtain ⟨e, he⟩ := hescapes.raised
    by_cases hallowed : Allowed cfg db path authorization
    · obtain ⟨caller, hc⟩ := hclosed.handled.mpr hallowed
      rw [he] at hc
      cases hc
    · obtain ⟨status, detail, hr, -⟩ := hclosed.refused hallowed
      rw [he] at hr
      cases hr
  · intro hno
    have hspec := dispatch_spec hno
    refine ⟨⟨?_, ?_⟩, ?_, fun hpublic hkey hfails => ⟨_, dispatch_noCount hpublic hkey hfails⟩, ?_⟩
    · rintro ⟨caller, hc⟩
      rcases hspec with ⟨-, hallowed⟩ | ⟨⟨status, detail, hr, -⟩, -⟩
      · exact hallowed
      · rw [hc] at hr
        cases hr
    · intro hallowed
      rcases hspec with ⟨hhandled, -⟩ | ⟨-, hnot⟩
      · exact hhandled
      · exact absurd hallowed hnot
    · intro hnot
      rcases hspec with ⟨-, hallowed⟩ | ⟨hrefused, -⟩
      · exact absurd hallowed hnot
      · exact hrefused
    · -- a look-up that fails would raise
      intro token hpresents hother hfails
      exact absurd ⟨token, hpresents, Or.inr ⟨hother, hfails⟩⟩ hno

end Verdicts

/-! ## Two tokens -/

section Example

/-- A static key, and no keys in the table. -/
def legacyConfig : AuthConfig where
  apiKey := "secret"
  hashKey := id
  uuid := fun _ => none
  urlPath := rebuiltPath

def noKeys : KeyTable where
  keys := []
  unique := List.nodup_nil

def unreachable : KeyTable where
  keys := []
  unique := List.nodup_nil
  countFails := true
  lookUpFails := true

/-- **Two exceptions escape**: of the comparison of a token with a letter outside ASCII, and of the
look-up of a token in a database that is unreachable. -/
theorem token_escapes :
    (∃ e, dispatch legacyConfig noKeys "/api/workflows" (some "Bearer caf\u00e9") = .raised e) ∧
    (∃ e, dispatch legacyConfig unreachable "/api/workflows" (some "Bearer x") = .raised e) ∧
    ¬ FailsClosed legacyConfig noKeys "/api/workflows" (some "Bearer caf\u00e9") ∧
    ¬ FailsClosed legacyConfig unreachable "/api/workflows" (some "Bearer x") := by
  have hascii : dispatch legacyConfig noKeys "/api/workflows" (some "Bearer caf\u00e9") =
      .raised ⟨.typeError, "comparing strings with non-ASCII characters is not supported"⟩ := by
    decide +kernel
  have hlookUp : dispatch legacyConfig unreachable "/api/workflows" (some "Bearer x") =
      .raised ⟨.other, "connection refused"⟩ := by
    decide +kernel
  refine ⟨⟨_, hascii⟩, ⟨_, hlookUp⟩, fun hclosed => ?_, fun hclosed => ?_⟩
  · have hnot : ¬ Allowed legacyConfig noKeys "/api/workflows" (some "Bearer caf\u00e9") := by
      intro hallowed
      obtain ⟨caller, hc⟩ := hclosed.handled.mpr hallowed
      rw [hascii] at hc
      cases hc
    obtain ⟨status, detail, hr, -⟩ := hclosed.refused hnot
    rw [hascii] at hr
    cases hr
  · have hpresents : Presents legacyConfig unreachable "/api/workflows" (some "Bearer x") "x" :=
      ⟨by decide, by decide, rfl⟩
    obtain ⟨detail, hr⟩ := hclosed.noLookUp "x" hpresents (by decide) rfl
    rw [hlookUp] at hr
    cases hr

end Example

end ScoutEngine
