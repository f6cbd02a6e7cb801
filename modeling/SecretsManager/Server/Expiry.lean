import SecretsManager.Lib.Rfc3339
import SecretsManager.Server.TokenLifecycle

/-!
# The day a token expires

`create_token` and `token create` add the days of a token to the clock. Up to the end
of the year 9999 the sum is printed and reads back as that instant; past it the
addition panics, and with the release profile the process is gone.
-/

namespace SecretsManager

open FaultySession

/-- Nanoseconds of the first instant of year 0. -/
def minInstant : Int := -62167219200000000000

/-- RFC 3339 prints the instants of the years 0 to 9999, and what is printed can be read back. -/
structure TimeCrate.Rfc3339 (time : TimeCrate) : Prop where
  prints : ∀ i, (time.format i).isSome ↔ minInstant ≤ i ∧ i ≤ maxInstant
  reads : time.RoundTrips

def daysAhead (now : Int) (days : UInt32) : Int := now + days.toNat * 86400 * 1000000000

/-- No expiry for a token without days, else a text of exactly that many days ahead. -/
def ExactExpiry (time : TimeCrate) (now : Int) : Option UInt32 → Option String → Prop
  | none, expiresAt => expiresAt = none
  | some days, expiresAt =>
    ∃ text, expiresAt = some text ∧ time.parse text = some (daysAhead now days)

/-- The days of the token asked for, none without an expiry. -/
def CreateTokenBody.days (body : CreateTokenBody) : Option UInt32 :=
  if body.noExpiry then none else some (body.ttlDays.getD 90)

variable {Key : Type} (c : ServerCrates Key)

/-- What `create_token` owes one request, whatever statements fail. -/
structure TotalRequest (db : Db) (token : AuthedToken) (body : Except AppError CreateTokenBody)
    (d : Draws c.time) : Prop where
  noPanic : ∀ faults, (Handlers.createToken c token body d ⟨db, faults⟩).1 ≠ .error .panic
  granted : ∀ faults response,
    (Handlers.createToken c token body d ⟨db, faults⟩).1 = .ok response →
    ∃ b expiresAt, body = .ok b ∧
      response = ⟨201, .token b.name b.project expiresAt d.token⟩ ∧
      ExactExpiry c.time d.expiresFrom.instant b.days expiresAt ∧
      (Handlers.createToken c token body d ⟨db, faults⟩).2.store =
        db.addToken b.name (hashToken c.toCryptoCrates d.token) b.project d.writtenAt.rfc3339
          expiresAt
  refused : ∀ faults e, (Handlers.createToken c token body d ⟨db, faults⟩).1 = .error e →
    (Handlers.createToken c token body d ⟨db, faults⟩).2.store = db
  /-- A decoded body of an administrator is refused with 400. -/
  badRequest : ensureAdmin token = .ok () → ∀ b, body = .ok b → ∀ e,
    (Handlers.createToken c token body d ⟨db, []⟩).1 = .error (.app e) →
    e.intoResponse.status = 400

/-- What `token create` owes one invocation. -/
structure TotalCommand (db : Db) (name : String) (project : Option String)
    (ttlDays : Option UInt32) (d : CommandDraws c.time) : Prop where
  noPanic : ∀ faults, (Commands.tokenCreate c name project ttlDays d ⟨db, faults⟩).1 ≠ .error .panic
  granted : ∀ faults, (Commands.tokenCreate c name project ttlDays d ⟨db, faults⟩).1 = .ok () →
    ∃ expiresAt, ExactExpiry c.time d.expiresFrom.instant ttlDays expiresAt ∧
      (Commands.tokenCreate c name project ttlDays d ⟨db, faults⟩).2.store =
        db.addToken name (hashToken c.toCryptoCrates d.token) project d.writtenAt.rfc3339 expiresAt
  refused : ∀ faults e, (Commands.tokenCreate c name project ttlDays d ⟨db, faults⟩).1 = .error e →
    (Commands.tokenCreate c name project ttlDays d ⟨db, faults⟩).2.store = db

/-- The checks of `create_token` before it adds the days. -/
structure CreateTokenBody.Passes (body : CreateTokenBody) (token : AuthedToken) : Prop where
  admin : ensureAdmin token = .ok ()
  validName : validProject body.name = true
  validScope : body.project.all validProject = true
  oneExpiry : (!(body.noExpiry && body.ttlDays.isSome)) = true

/-- Days that are added stay within the year 9999. -/
def DaysFit (now : Int) (ttlDays : Option UInt32) : Prop :=
  ∀ days, ttlDays = some days → days ≠ 0 → daysAhead now days ≤ maxInstant

/-! ## The two sums -/

section Sums

variable {c} {now sum : Int} {days : UInt32}

lemma addDays_some : addDays now days = some sum ↔
    sum = daysAhead now days ∧ daysAhead now days ≤ maxInstant := by
  simp only [addDays, daysAhead]
  constructor
  · intro added
    split at added
    · rename_i fits
      exact ⟨(Option.some.inj added).symm, fits⟩
    · cases added
  · rintro ⟨rfl, fits⟩
    rw [if_pos fits]

lemma addDays_none : addDays now days = none ↔ maxInstant < daysAhead now days := by
  simp only [addDays, daysAhead]
  constructor
  · intro refused
    split at refused
    · cases refused
    · omega
  · intro late
    rw [if_neg (by omega)]

/-- A sum of a clock reading that is in the range is printed, and reads back. -/
lemma sum_printed (rfc : c.time.Rfc3339) (reading : Reading c.time)
    (fits : daysAhead reading.instant days ≤ maxInstant) :
    ∃ text, c.time.format (daysAhead reading.instant days) = some text ∧
      c.time.parse text = some (daysAhead reading.instant days) := by
  have started : minInstant ≤ reading.instant := by
    apply ((rfc.prints _).mp _).1
    rw [reading.formats]
    rfl
  have later : reading.instant ≤ daysAhead reading.instant days := by
    unfold daysAhead
    omega
  obtain ⟨text, printed⟩ := Option.isSome_iff_exists.mp
    ((rfc.prints _).mpr ⟨Int.le_trans started later, fits⟩)
  exact ⟨text, printed, rfc.reads _ _ printed⟩

/-- The handler's expiry: none, a refusal of zero days, the exact day, or a panic past the range. -/
lemma handler_expiry_cases (rfc : c.time.Rfc3339) (body : CreateTokenBody) (d : Draws c.time) :
    (∃ expiresAt, Handlers.tokenExpiry c body d = .ok expiresAt ∧
      ExactExpiry c.time d.expiresFrom.instant body.days expiresAt ∧
      DaysFit d.expiresFrom.instant body.days) ∨
    (Handlers.tokenExpiry c body d = .error (.app (.badRequest "ttl_days must be at least 1")) ∧
      DaysFit d.expiresFrom.instant body.days) ∨
    (Handlers.tokenExpiry c body d = .error .panic ∧
      ¬ DaysFit d.expiresFrom.instant body.days) := by
  unfold Handlers.tokenExpiry CreateTokenBody.days
  by_cases never : body.noExpiry = true
  · simp only [never, if_true]
    exact .inl ⟨none, rfl, rfl, fun _ h => nomatch h⟩
  · simp only [never, if_false, Bool.false_eq_true]
    by_cases zero : body.ttlDays.getD 90 = 0
    · rw [if_pos zero]
      apply Or.inr
      apply Or.inl
      constructor
      · rfl
      · intro days asked positive
        exact absurd (Option.some.inj asked ▸ zero) positive
    · rw [if_neg zero]
      by_cases fits : daysAhead d.expiresFrom.instant (body.ttlDays.getD 90) ≤ maxInstant
      · obtain ⟨text, printed, read⟩ := sum_printed rfc d.expiresFrom fits
        have added := addDays_some.mpr ⟨rfl, fits⟩
        simp only [added, printed]
        apply Or.inl
        refine ⟨some text, rfl, ⟨text, rfl, read⟩, ?_⟩
        intro days asked _
        rw [← Option.some.inj asked]
        exact fits
      · have beyond := addDays_none.mpr (Int.lt_of_not_ge fits)
        simp only [beyond]
        apply Or.inr
        apply Or.inr
        constructor
        · trivial
        · intro all
          exact fits (all _ rfl zero)

/-- The command's expiry; zero days are not refused here. -/
lemma command_expiry_cases (rfc : c.time.Rfc3339) (ttlDays : Option UInt32)
    (reading : Reading c.time) :
    (∃ expiresAt, Commands.tokenExpiry c ttlDays reading.instant = .ok expiresAt ∧
      ExactExpiry c.time reading.instant ttlDays expiresAt ∧ DaysFit reading.instant ttlDays) ∨
    (Commands.tokenExpiry c ttlDays reading.instant = .error .panic ∧
      (ttlDays ≠ some 0 → ¬ DaysFit reading.instant ttlDays)) := by
  cases ttlDays with
  | none => exact .inl ⟨none, rfl, rfl, fun _ h => nomatch h⟩
  | some days =>
      by_cases fits : daysAhead reading.instant days ≤ maxInstant
      · obtain ⟨text, printed, read⟩ := sum_printed rfc reading fits
        have added := addDays_some.mpr ⟨rfl, fits⟩
        simp only [Commands.tokenExpiry, added, printed]
        apply Or.inl
        refine ⟨some text, rfl, ⟨text, rfl, read⟩, ?_⟩
        intro days' asked _
        rw [← Option.some.inj asked]
        exact fits
      · have beyond := addDays_none.mpr (Int.lt_of_not_ge fits)
        simp only [Commands.tokenExpiry, beyond]
        apply Or.inr
        constructor
        · trivial
        · intro positive all
          exact fits (all days rfl fun zero => positive (congrArg some zero))

end Sums

/-! ## What stops the handler and the command -/

section Refusals

variable {c} {s : Session Db}

lemma ensure_stops {ok : Bool} {e : AppError} {f : Unit → Handler α} {P : Failure → Prop}
    (refused : P (.app e)) (next : ok = true → Stops s (f ()) P) :
    Stops s (ensure ok e >>= f) P := by
  cases ok with
  | true => exact next rfl
  | false => exact Stops.fail refused

lemma bailUnless_stops {ok : Bool} {msg : String} {f : Unit → Prog Db CommandError α}
    {P : CommandError → Prop} (refused : P (.bail msg)) (next : ok = true → Stops s (f ()) P) :
    Stops s (Commands.bailUnless ok msg >>= f) P := by
  cases ok with
  | true => exact next rfl
  | false => exact Stops.fail refused

/-- How `create_token` fails: a refusal before the expiry, 400 for an administrator's body; the
expiry itself; or a fault of the insertion. -/
inductive CreateTokenStop (c : ServerCrates Key) (token : AuthedToken)
    (body : Except AppError CreateTokenBody) (d : Draws c.time) (faults : List Bool) :
    Failure → Prop
  | refused (e : AppError)
      (status : ensureAdmin token = .ok () → ∀ b, body = .ok b → e.intoResponse.status = 400) :
      CreateTokenStop c token body d faults (.app e)
  | expiry (b : CreateTokenBody) (e : Failure) (decoded : body = .ok b) (passes : b.Passes token)
      (stopped : Handlers.tokenExpiry c b d = .error e) : CreateTokenStop c token body d faults e
  | database (faulty : faults ≠ []) :
      CreateTokenStop c token body d faults (.app (.internal "database"))

lemma createToken_stops (token : AuthedToken) (body : Except AppError CreateTokenBody)
    (d : Draws c.time) :
    Stops s (Handlers.createToken c token body d) (CreateTokenStop c token body d s.faults) := by
  have bad : ∀ msg, CreateTokenStop c token body d s.faults (.app (.badRequest msg)) := by
    intro msg
    apply CreateTokenStop.refused
    intro _ _ _
    rfl
  unfold Handlers.createToken
  apply Stops.lift_bind
  · intro e stopped
    cases admin : ensureAdmin token with
    | ok _ =>
        rw [admin] at stopped
        cases stopped
    | error e' =>
        rw [admin] at stopped
        cases stopped
        exact .refused e' fun isAdmin => nomatch admin.symm.trans isAdmin
  · intro _ admin
    apply Stops.lift_bind
    · intro e stopped
      cases body with
      | ok b => cases stopped
      | error e' =>
          cases stopped
          exact .refused e' fun _ _ decoded => nomatch decoded
    · intro b decoded
      apply ensure_stops (bad _)
      intro validName
      apply ensure_stops (bad _)
      intro validScope
      apply ensure_stops (bad _)
      intro oneExpiry
      apply Stops.lift_bind
      · intro e stopped
        exact .expiry b e (mapError_ok decoded)
          ⟨mapError_ok admin, validName, validScope, oneExpiry⟩ stopped
      · intro expiresAt _
        apply Stops.update_pure
        exact CreateTokenStop.database

/-- Past its checks, `create_token` stops where its expiry does. -/
lemma createToken_passes {token : AuthedToken} {b : CreateTokenBody} (passes : b.Passes token)
    {d : Draws c.time} {e : Failure} (stopped : Handlers.tokenExpiry c b d = .error e) :
    Handlers.createToken c token (.ok b) d s = (.error e, s) := by
  have admin : orReject (ensureAdmin token) = pure () := by
    rw [passes.admin]
    rfl
  have decoded : orReject (.ok b : Except AppError CreateTokenBody) = pure b := rfl
  simp only [Handlers.createToken, admin, decoded, pure_bind', passes.validName,
    passes.validScope, passes.oneExpiry, ensure, if_true, stopped, lift_error, fail_bind,
    fail_apply]

/-- The checks of `token create` before it adds the days. -/
structure CommandPasses (name : String) (project : Option String) (ttlDays : Option UInt32) :
    Prop where
  validName : Commands.validName name = true
  validScope : project.all Commands.validName = true
  positive : ttlDays ≠ some 0

/-- How `token create` fails: a refusal, the expiry, or the insertion. -/
inductive TokenCreateStop (c : ServerCrates Key) (name : String) (project : Option String)
    (ttlDays : Option UInt32) (now : Int) : CommandError → Prop
  | refused (msg : String) : TokenCreateStop c name project ttlDays now (.bail msg)
  | expiry (e : CommandError) (passes : CommandPasses name project ttlDays)
      (stopped : Commands.tokenExpiry c ttlDays now = .error e) :
      TokenCreateStop c name project ttlDays now e
  | database (cause : SqliteError) :
      TokenCreateStop c name project ttlDays now (.database cause)

lemma tokenCreate_stops (name : String) (project : Option String) (ttlDays : Option UInt32)
    (d : CommandDraws c.time) :
    Stops s (Commands.tokenCreate c name project ttlDays d)
      (TokenCreateStop c name project ttlDays d.expiresFrom.instant) := by
  have bad : ∀ msg, TokenCreateStop c name project ttlDays d.expiresFrom.instant (.bail msg) :=
    TokenCreateStop.refused
  unfold Commands.tokenCreate
  apply bailUnless_stops (bad _)
  intro validName
  apply bailUnless_stops (bad _)
  intro validScope
  apply bailUnless_stops (bad _)
  intro positive
  apply Stops.lift_bind
  · intro e stopped
    exact .expiry e ⟨validName, validScope, of_decide_eq_true positive⟩ stopped
  · intro expiresAt _ e stopped
    rw [mapError_apply] at stopped
    cases inserted : Repo.insertToken name (hashToken c.toCryptoCrates d.token) project expiresAt
        d.writtenAt.rfc3339 s with
    | mk result s' =>
        rw [inserted] at stopped
        cases result with
        | ok _ => cases stopped
        | error cause =>
            cases stopped
            exact .database cause

lemma tokenCreate_passes {name : String} {project : Option String} {ttlDays : Option UInt32}
    (passes : CommandPasses name project ttlDays) {d : CommandDraws c.time} {e : CommandError}
    (stopped : Commands.tokenExpiry c ttlDays d.expiresFrom.instant = .error e) :
    Commands.tokenCreate c name project ttlDays d s = (.error e, s) := by
  have positive : decide (ttlDays ≠ some 0) = true := decide_eq_true passes.positive
  simp only [Commands.tokenCreate, Commands.bailUnless, passes.validName, passes.validScope,
    positive, if_true, pure_bind', stopped, lift_error, fail_bind, fail_apply]

end Refusals

/-! ## Total up to the year 9999 -/

section Total

variable {c}

/-- Where the days fit, `create_token` owes all of it. -/
theorem createToken_total (rfc : c.time.Rfc3339) {db : Db} {token : AuthedToken}
    {body : Except AppError CreateTokenBody} {d : Draws c.time}
    (fit : ∀ b, body = .ok b → b.Passes token → DaysFit d.expiresFrom.instant b.days) :
    TotalRequest c db token body d := by
  have whole := @createToken_issues Key c token d db body
  have ends := fun faults => whole.elim (show (⟨db, faults⟩ : Session Db).store = db from rfl)
  have stops := fun faults => @createToken_stops Key c ⟨db, faults⟩ token body d
  constructor
  · intro faults panicked
    cases stops faults _ panicked with
    | expiry b _ decoded passes stopped =>
        rcases handler_expiry_cases rfc b d with ⟨_, ok, _⟩ | ⟨bad, _⟩ | ⟨_, unfit⟩
        · exact nomatch ok.symm.trans stopped
        · exact nomatch bad.symm.trans stopped
        · exact unfit (fit b decoded passes)
  · intro faults response answered
    rcases ends faults with ⟨_, ok, b, expiresAt, decoded, _, _, _, expiry, rfl, issued⟩ | ⟨e, error, _⟩
    · cases ok.symm.trans answered
      rcases handler_expiry_cases rfc b d with ⟨_, found, exactly, _⟩ | ⟨bad, _⟩ | ⟨bad, _⟩
      · cases found.symm.trans expiry
        exact ⟨b, expiresAt, decoded, rfl, exactly, issued⟩
      · cases bad.symm.trans expiry
      · cases bad.symm.trans expiry
    · cases error.symm.trans answered
  · intro faults e stopped
    rcases ends faults with ⟨_, ok, _⟩ | ⟨_, _, same⟩
    · cases ok.symm.trans stopped
    · exact same
  · intro admin b decoded e stopped
    cases stops [] _ stopped with
    | refused _ status => exact status admin b decoded
    | expiry b' _ decoded' passes stopped' =>
        rcases handler_expiry_cases rfc b' d with ⟨_, ok, _⟩ | ⟨bad, _⟩ | ⟨panic, _⟩
        · cases ok.symm.trans stopped'
        · cases bad.symm.trans stopped'
          rfl
        · cases panic.symm.trans stopped'
    | database faulty => exact absurd rfl faulty

theorem tokenCreate_total (rfc : c.time.Rfc3339) {db : Db} {name : String}
    {project : Option String} {ttlDays : Option UInt32} {d : CommandDraws c.time}
    (fit : CommandPasses name project ttlDays → DaysFit d.expiresFrom.instant ttlDays) :
    TotalCommand c db name project ttlDays d := by
  have whole := @tokenCreate_triple Key c db name project ttlDays d
  have ends := fun faults => whole.elim (show (⟨db, faults⟩ : Session Db).store = db from rfl)
  constructor
  · intro faults panicked
    cases tokenCreate_stops name project ttlDays d _ panicked with
    | expiry _ passes stopped =>
        rcases command_expiry_cases rfc ttlDays d.expiresFrom with ⟨_, ok, _⟩ | ⟨_, unfit⟩
        · exact nomatch ok.symm.trans stopped
        · exact unfit passes.positive (fit passes)
  · intro faults answered
    rcases ends faults with ⟨_, _, expiresAt, expiry, issued⟩ | ⟨e, error, _⟩
    · rcases command_expiry_cases rfc ttlDays d.expiresFrom with ⟨_, found, exactly, _⟩ | ⟨bad, _⟩
      · cases found.symm.trans expiry
        exact ⟨expiresAt, exactly, issued⟩
      · cases bad.symm.trans expiry
    · cases error.symm.trans answered
  · intro faults e stopped
    rcases ends faults with ⟨_, ok, _⟩ | ⟨_, _, same⟩
    · cases ok.symm.trans stopped
    · exact same

/-- The expiry is computed exactly, or refused, if the day asked for lies before the year 10000;
past it both ways of making a token panic. -/
theorem expiry_total_iff (rfc : c.time.Rfc3339) (db : Db) :
    (∀ token body (d : Draws c.time), TotalRequest c db token body d ↔
      ∀ b, body = .ok b → b.Passes token → DaysFit d.expiresFrom.instant b.days) ∧
    (∀ name project ttlDays (d : CommandDraws c.time),
      TotalCommand c db name project ttlDays d ↔
        (CommandPasses name project ttlDays → DaysFit d.expiresFrom.instant ttlDays)) := by
  constructor
  · intro token body d
    constructor
    · rintro total b rfl passes
      rcases handler_expiry_cases rfc b d with ⟨_, _, _, fit⟩ | ⟨_, fit⟩ | ⟨panic, _⟩
      · exact fit
      · exact fit
      · exact absurd (congrArg Prod.fst (createToken_passes passes panic)) (total.noPanic [])
    · exact createToken_total rfc
  · intro name project ttlDays d
    constructor
    · intro total passes
      rcases command_expiry_cases rfc ttlDays d.expiresFrom with ⟨_, _, _, fit⟩ | ⟨panic, _⟩
      · exact fit
      · exact absurd (congrArg Prod.fst (tokenCreate_passes passes panic)) (total.noPanic [])
    · exact tokenCreate_total rfc

end Total

/-! ## A clock that prints every instant of its range -/

/-- RFC 3339 in UTC, the instants counted from 1970. -/
def utcTime : TimeCrate where
  format i :=
    if minInstant ≤ i ∧ i ≤ maxInstant then
      some (String.ofList (Rfc3339.text (i - minInstant).toNat))
    else none
  parse s := (Rfc3339.parse s.toList).map fun t => t + minInstant

theorem utcTime_rfc3339 : utcTime.Rfc3339 := by
  constructor
  · intro i
    simp [utcTime]
  · intro i text printed
    simp only [utcTime] at printed ⊢
    split at printed
    · rename_i inside
      cases printed
      have within : (i - minInstant).toNat < Rfc3339.limit := by
        have size : Rfc3339.limit = 315569520000000000000 := by decide
        unfold minInstant maxInstant at *
        omega
      have back : ((i - minInstant).toNat : Int) + minInstant = i := by omega
      rw [String.toList_ofList, Rfc3339.parse_text within]
      exact congrArg some back
    · cases printed

/-- The server over frames, with this clock. -/
def utcServer : ServerCrates Bytes := { framedServer with time := utcTime }

/-- The first of January 1970. -/
def utcEpoch : Reading utcTime := ⟨0, "1970-01-01T00:00:00Z", by decide⟩

def utcDraws : Draws utcServer.time := ⟨utcEpoch, utcEpoch, utcEpoch, .zero, "tok"⟩

def utcCommandDraws : CommandDraws utcServer.time := ⟨utcEpoch, utcEpoch, "tok"⟩

theorem expiry_total_iff_ninetyDays :
    TotalRequest utcServer .empty ⟨"root", none⟩ (.ok ⟨"fresh", none, some 90, false⟩) utcDraws ∧
      TotalCommand utcServer .empty "fresh" none (some 90) utcCommandDraws := by
  have fits : DaysFit 0 (some 90) := by
    rintro days asked _
    cases asked
    decide
  constructor
  · apply ((expiry_total_iff utcTime_rfc3339 .empty).1 _ _ utcDraws).mpr
    rintro b decoded _
    cases decoded
    exact fits
  · apply ((expiry_total_iff utcTime_rfc3339 .empty).2 _ _ _ utcCommandDraws).mpr
    exact fun _ => fits

/-- Four billion days from 1970, the year is past 9999. -/
theorem distant_day_panics :
    ((Handlers.createToken utcServer ⟨"root", none⟩
        (.ok ⟨"fresh", none, some 4294967295, false⟩) utcDraws ⟨.empty, []⟩).1 = .error .panic ∧
      ¬ TotalRequest utcServer .empty ⟨"root", none⟩
        (.ok ⟨"fresh", none, some 4294967295, false⟩) utcDraws) ∧
    (Commands.tokenCreate utcServer "fresh" none (some 4294967295) utcCommandDraws
        ⟨.empty, []⟩).1 = .error .panic ∧
      ¬ TotalCommand utcServer .empty "fresh" none (some 4294967295) utcCommandDraws := by
  constructor
  · refine ⟨rfl, ?_⟩
    intro total
    exact total.noPanic [] rfl
  · refine ⟨rfl, ?_⟩
    intro total
    exact total.noPanic [] rfl

end SecretsManager
