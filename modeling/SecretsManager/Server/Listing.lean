import SecretsManager.Server.Expiry

/-!
# The order of the token list

`list_tokens` sorts by the text of the creation times. A whole second is printed
without a fraction and a fraction without its trailing zeros, so within one second
the texts are in the order of time only as long as no fraction begins a later one.
-/

namespace SecretsManager

open KeyedTable FaultySession

/-- The nanoseconds from the first instant of year 0 on. -/
def sinceYearZero (i : Int) : Nat := (i - minInstant).toNat

/-- The instants of the years 0 to 9999 in UTC, their fractions without trailing zeros. -/
def TimeCrate.PrintsUtc (time : TimeCrate) : Prop :=
  ∀ i, minInstant ≤ i → i ≤ maxInstant →
    time.format i = some (String.ofList (Rfc3339.text (sinceYearZero i)))

/-- The two share a second, and the printed digits of the first one's fraction, none for a whole
second, begin those of the second one's. -/
def FractionBegins (i i' : Int) : Prop :=
  sinceYearZero i / Rfc3339.perSecond = sinceYearZero i' / Rfc3339.perSecond ∧
    Decimal.trimmed 9 (sinceYearZero i % Rfc3339.perSecond) <+:
      Decimal.trimmed 9 (sinceYearZero i' % Rfc3339.perSecond)

instance (i i' : Int) : Decidable (FractionBegins i i') := inferInstanceAs (Decidable (_ ∧ _))

/-! ## Calls of `insert_token` -/

/-- One call, its clock reading, and whether the statement fails. -/
structure Insertion (time : TimeCrate) where
  name : String
  tokenHash : Bytes
  scope : Option String
  expiresAt : Option String
  now : Reading time
  fails : Bool

section Insertions

variable {time : TimeCrate}

def Insertion.call (i : Insertion time) : Prog Db SqliteError Unit :=
  Repo.insertToken i.name i.tokenHash i.scope i.expiresAt i.now.rfc3339

/-- What the list shows of the token. -/
def Insertion.info (i : Insertion time) : TokenInfo :=
  ⟨i.name, i.scope, i.now.rfc3339, false, i.expiresAt⟩

/-- The calls one after the other. -/
def insertTokens (db : Db) (calls : List (Insertion time)) : Db :=
  calls.foldl (fun db i => (i.call ⟨db, [i.fails]⟩).2.store) db

/-- The calls that created their token, in the order of the creation. -/
def created (calls : List (Insertion time)) : List (Insertion time) :=
  calls.filter fun i => i.fails = false

/-- The list, and the answer to an administrator, show the created tokens in this order. -/
def ListsInOrder (db : Db) (calls : List (Insertion time)) : Prop :=
  (Repo.listTokens ⟨db, []⟩).1 = .ok ((created calls).map Insertion.info) ∧
    ∀ token, ensureAdmin token = .ok () →
      (Handlers.listTokens token ⟨db, []⟩).1 =
        .ok ⟨200, .tokens ((created calls).map Insertion.info)⟩

lemma call_failed (i : Insertion time) (db : Db) (failed : i.fails = true) :
    i.call ⟨db, [i.fails]⟩ = (.error .failed, ⟨db, []⟩) := by
  rw [failed]
  rfl

lemma call_done (i : Insertion time) (db : Db) (done : i.fails = false) :
    i.call ⟨db, [i.fails]⟩ =
      (.ok (), ⟨db.addToken i.name i.tokenHash i.scope i.now.rfc3339 i.expiresAt, []⟩) := by
  rw [done]
  rfl

/-- The rows are the created tokens after those that were there. -/
lemma insertTokens_infos (db : Db) (calls : List (Insertion time)) :
    (insertTokens db calls).tokens.map TokenRow.info =
      db.tokens.map TokenRow.info ++ (created calls).map Insertion.info := by
  induction calls generalizing db with
  | nil => simp [insertTokens, created]
  | cons i calls ih =>
    cases outcome : i.fails with
    | true =>
      have kept : insertTokens db (i :: calls) = insertTokens db calls := by
        simp only [insertTokens, List.foldl_cons, call_failed i db outcome]
      have skipped : created (i :: calls) = created calls := by simp [created, outcome]
      rw [kept, skipped, ih]
    | false =>
      have added : insertTokens db (i :: calls) = insertTokens
          (db.addToken i.name i.tokenHash i.scope i.now.rfc3339 i.expiresAt) calls := by
        simp only [insertTokens, List.foldl_cons, call_done i db outcome]
      have first : created (i :: calls) = i :: created calls := by simp [created, outcome]
      rw [added, first, ih]
      simp [Db.addToken, TokenRow.info, Insertion.info]

lemma listTokens_nil (db : Db) : (Repo.listTokens ⟨db, []⟩).1 =
    .ok ((orderBy TokenRow.createdAt db.tokens).map TokenRow.info) := rfl

lemma listTokens_admin {db : Db} {infos : List TokenInfo} {token : AuthedToken}
    (listed : (Repo.listTokens ⟨db, []⟩).1 = .ok infos) (admin : ensureAdmin token = .ok ()) :
    (Handlers.listTokens token ⟨db, []⟩).1 = .ok ⟨200, .tokens infos⟩ := by
  obtain rfl := Except.ok.inj listed
  simp only [Handlers.listTokens, admin, orReject, database, Repo.listTokens, bind_apply,
    mapError_apply]
  rfl

end Insertions

/-! ## The texts of the readings -/

section Texts

variable {time : TimeCrate} {i i' : Int}

lemma sinceYearZero_lt (late : i ≤ maxInstant) : sinceYearZero i < Rfc3339.limit := by
  have size : Rfc3339.limit = 315569520000000000000 := by decide
  unfold sinceYearZero minInstant maxInstant at *
  omega

lemma Reading.text (utc : time.PrintsUtc) (now : Reading time) (early : minInstant ≤ now.instant)
    (late : now.instant ≤ maxInstant) :
    now.rfc3339 = String.ofList (Rfc3339.text (sinceYearZero now.instant)) :=
  Option.some.inj (now.formats.symm.trans (utc now.instant early late))

/-- The text of the earlier of two readings comes first unless its fraction begins the other. -/
theorem rfc3339_le_iff (utc : time.PrintsUtc) {now now' : Reading time}
    (early : minInstant ≤ now.instant) (late : now'.instant ≤ maxInstant)
    (less : now.instant < now'.instant) :
    now.rfc3339 ≤ now'.rfc3339 ↔ ¬ FractionBegins now.instant now'.instant := by
  have within : sinceYearZero now.instant < Rfc3339.limit := sinceYearZero_lt (by omega)
  have within' : sinceYearZero now'.instant < Rfc3339.limit := sinceYearZero_lt late
  have later : sinceYearZero now.instant < sinceYearZero now'.instant := by
    unfold sinceYearZero
    omega
  rw [now.text utc early (by omega), now'.text utc (by omega) late, FractionBegins,
    ← Rfc3339.text_lt_iff within within' later, String.le_iff_toList_le, String.toList_ofList,
    String.toList_ofList]
  constructor
  · intro le
    apply lt_of_le_of_ne le
    intro same
    exact absurd (Rfc3339.text_injective within within' same) (Nat.ne_of_lt later)
  · exact le_of_lt

lemma texts_sorted_iff (utc : time.PrintsUtc) {calls : List (Insertion time)}
    (increasing : calls.Pairwise fun a b => a.now.instant < b.now.instant)
    (years : ∀ i ∈ calls, minInstant ≤ i.now.instant ∧ i.now.instant ≤ maxInstant) :
    (calls.Pairwise fun a b => a.now.rfc3339 ≤ b.now.rfc3339) ↔
      calls.Pairwise fun a b => ¬ FractionBegins a.now.instant b.now.instant := by
  constructor
  · intro sorted
    apply List.Pairwise.imp_of_mem _ (increasing.and sorted)
    rintro a b first second ⟨less, le⟩
    exact (rfc3339_le_iff utc (years a first).1 (years b second).2 less).mp le
  · intro apart
    apply List.Pairwise.imp_of_mem _ (increasing.and apart)
    rintro a b first second ⟨less, apart⟩
    exact (rfc3339_le_iff utc (years a first).1 (years b second).2 less).mpr apart

end Texts

/-- The list is chronological exactly when no created token's fraction begins that of a later one
in the same second. -/
theorem listing_chronological_iff {time : TimeCrate} (utc : time.PrintsUtc) {db : Db}
    (empty : db.tokens = []) {calls : List (Insertion time)}
    (increasing : calls.Pairwise fun a b => a.now.instant < b.now.instant)
    (years : ∀ i ∈ calls, minInstant ≤ i.now.instant ∧ i.now.instant ≤ maxInstant) :
    ListsInOrder (insertTokens db calls) calls ↔
      (created calls).Pairwise fun a b => ¬ FractionBegins a.now.instant b.now.instant := by
  have infos : (insertTokens db calls).tokens.map TokenRow.info =
      (created calls).map Insertion.info := by
    rw [insertTokens_infos, empty, List.map_nil, List.nil_append]
  have years' : ∀ i ∈ created calls, minInstant ≤ i.now.instant ∧ i.now.instant ≤ maxInstant :=
    fun i mem => years i (List.mem_of_mem_filter mem)
  have increasing' : (created calls).Pairwise fun a b => a.now.instant < b.now.instant :=
    increasing.filter _
  have texts := texts_sorted_iff utc increasing' years'
  have listed : (Repo.listTokens ⟨insertTokens db calls, []⟩).1 =
        .ok ((created calls).map Insertion.info) ↔
      (created calls).Pairwise fun a b => a.now.rfc3339 ≤ b.now.rfc3339 := by
    rw [listTokens_nil, Except.ok.injEq, ← infos,
      orderBy_map_eq_iff TokenRow.createdAt TokenRow.info TokenInfo.createdAt fun _ => rfl, infos,
      List.pairwise_map]
    rfl
  constructor
  · intro inOrder
    exact texts.mp (listed.mp inOrder.1)
  · intro apart
    have list := listed.mpr (texts.mpr apart)
    constructor
    · exact list
    · intro token admin
      exact listTokens_admin list admin

/-! ## Two creations in one second -/

def utcQuarter : Reading utcTime := ⟨250000000, "1970-01-01T00:00:00.25Z", by decide⟩

def utcHalf : Reading utcTime := ⟨500000000, "1970-01-01T00:00:00.5Z", by decide⟩

def twoCreations (first second : Reading utcTime) : List (Insertion utcTime) :=
  [⟨"a", [1], none, none, first, false⟩, ⟨"b", [2], none, none, second, false⟩]

theorem utcTime_printsUtc : utcTime.PrintsUtc := by
  intro i early late
  exact if_pos ⟨early, late⟩

theorem listing_chronological_iff_quarterHalf :
    ListsInOrder (insertTokens .empty (twoCreations utcQuarter utcHalf))
      (twoCreations utcQuarter utcHalf) := by
  have increasing : (twoCreations utcQuarter utcHalf).Pairwise fun a b =>
      a.now.instant < b.now.instant := by
    decide
  have years : ∀ i ∈ twoCreations utcQuarter utcHalf,
      minInstant ≤ i.now.instant ∧ i.now.instant ≤ maxInstant := by
    decide
  apply (listing_chronological_iff utcTime_printsUtc rfl increasing years).mpr
  decide

/-- A token of the whole second, created first, is listed after one of half a second later. -/
theorem whole_second_listed_late :
    (Repo.listTokens ⟨insertTokens .empty (twoCreations utcEpoch utcHalf), []⟩).1 =
        .ok [⟨"b", none, "1970-01-01T00:00:00.5Z", false, none⟩,
          ⟨"a", none, "1970-01-01T00:00:00Z", false, none⟩] ∧
      ¬ ListsInOrder (insertTokens .empty (twoCreations utcEpoch utcHalf))
        (twoCreations utcEpoch utcHalf) := by
  have listed : (Repo.listTokens ⟨insertTokens .empty (twoCreations utcEpoch utcHalf), []⟩).1 =
      .ok [⟨"b", none, "1970-01-01T00:00:00.5Z", false, none⟩,
        ⟨"a", none, "1970-01-01T00:00:00Z", false, none⟩] := by
    decide +kernel
  refine ⟨listed, ?_⟩
  intro inOrder
  have same := Except.ok.inj (listed.symm.trans inOrder.1)
  exact absurd same (by decide)

end SecretsManager
