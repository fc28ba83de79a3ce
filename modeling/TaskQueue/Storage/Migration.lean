import TaskQueue.Lib.Sqlite
import TaskQueue.Storage.IdempotencyDb

/-!
# Opening the idempotency store

The constructor rebuilds a table that still has the single-column key, in one
transaction, and creates the table where there is none.  The schema it finds is
told from the text of the definition.  A failing statement ends the constructor,
and with it the connection.
-/

namespace TaskQueue.IdempotencyDatabase

open Ecma Sqlite

inductive Column
  | job_name
  | key
  | status
  | result_json
  | created_at
  deriving DecidableEq

inductive Affinity
  | text
  | numeric

/-- A value of SQLite; a real is given by its bits. -/
inductive SqlValue
  | integer (n : Int)
  | real (bits : UInt64)
  | text (s : JsString)
  | blob (bytes : List UInt8)
  deriving DecidableEq

abbrev Record := Row Column SqlValue
abbrev RecordTable := StoredTable Column Affinity SqlValue
abbrev StoreDatabase := Database Column Affinity SqlValue

def idempotency_records : JsString := js "idempotency_records"
def idempotency_records_legacy : JsString := js "idempotency_records_legacy"

def Column.affinity : Column → Affinity
  | .created_at => .numeric
  | _ => .text

def composite : Definition Column Affinity where
  title := idempotency_records
  body := js "(
        job_name TEXT NOT NULL,
        key TEXT NOT NULL,
        status TEXT NOT NULL,
        result_json TEXT NOT NULL,
        created_at DATETIME DEFAULT CURRENT_TIMESTAMP,
        " ++ js "PRIMARY KEY (job_name, key)" ++ js "
      )"
  affinity := Column.affinity
  notNull := [.job_name, .key, .status, .result_json]
  primaryKey := [.job_name, .key]

/-- What the migration looks for in the definition of the table it finds. -/
def compositeKey : JsString := js "PRIMARY KEY (job_name, key)"

def copied : List Column := [.job_name, .key, .status, .result_json, .created_at]

def rebuild : List (Statement Column Affinity) := [
  .renameTable idempotency_records idempotency_records_legacy,
  .createTable idempotency_records composite,
  .insertOrIgnoreSelect idempotency_records copied copied idempotency_records_legacy,
  .dropTable idempotency_records_legacy]

/-! ## The constructor -/

section Constructor

variable (convert : Affinity → SqlValue → SqlValue)

def migrateIfLegacySchema (fails : Nat → Bool) (conn : Connection Column Affinity SqlValue) :
    Bool × Connection Column Affinity SqlValue :=
  -- The first statement is the query of `sqlite_master`.
  if fails 0 then (false, conn)
  else match conn.view.get idempotency_records with
    | none => (true, conn)
    | some existing =>
        if includes existing.sql compositeKey then (true, conn)
        else exec convert (fun i => fails (i + 1)) (transaction rebuild) conn

def init (fails : Nat → Bool) (conn : Connection Column Affinity SqlValue) :
    Bool × Connection Column Affinity SqlValue :=
  let (migrated, conn') := migrateIfLegacySchema convert fails conn
  if migrated then
    exec convert (fun i => fails (i + 7))
      [.createTableIfNotExists idempotency_records composite] conn'
  else (false, conn')

/-- `new IdempotencyDatabase(dbPath)`: whether it returned, and its connection. -/
def openStore (fails : Nat → Bool) (db : StoreDatabase) :
    Bool × Connection Column Affinity SqlValue :=
  init convert fails ⟨db, none⟩

/-- The database an opening leaves when its connection has ended. -/
def reopen (db : StoreDatabase) (fails : Nat → Bool) : StoreDatabase :=
  (openStore convert fails db).2.stored

end Constructor

def getRecord (db : StoreDatabase) (jobName key : JsString) : Option Record :=
  (db.get idempotency_records).bind fun t => t.rows.find? fun row =>
    row .job_name = some (.text jobName) ∧ row .key = some (.text key)

/-! ## Schemas -/

/-- A table with a single-column key: its keys are present and unique, the three
columns that were `NOT NULL` are present, and every value is one its column keeps. -/
structure IsLegacy (convert : Affinity → SqlValue → SqlValue) (t : RecordTable) : Prop where
  text : includes t.sql compositeKey = false
  affinity : t.affinity = Column.affinity
  present : ∀ row ∈ t.rows, ∀ c, c ≠ .created_at → row c ≠ none
  unique : (t.rows.map fun row => row .key).Nodup
  converted : ∀ row ∈ t.rows, t.Converted convert row

def earlierRow (key jobName status : JsString) : Record
  | .key => some (.text key)
  | .job_name => some (.text jobName)
  | .status => some (.text status)
  | .result_json => some (.text (js "\x7b\x7d"))
  | .created_at => none

def firstVersion : RecordTable where
  title := idempotency_records
  body := js "(\n" ++ js "      key TEXT PRIMARY KEY,\n" ++ js "      job_name TEXT NOT NULL,\n" ++
    js "      status TEXT NOT NULL,\n" ++ js "      result_json TEXT NOT NULL,\n" ++
    js "      created_at DATETIME DEFAULT CURRENT_TIMESTAMP\n" ++ js "    )"
  affinity := Column.affinity
  notNull := [.job_name, .status, .result_json]
  primaryKey := [.key]
  rows :=
    [earlierRow (js "order_1") (js "EMAIL_NOTIFICATION") (js "COMPLETED"),
      earlierRow (js "order_2") (js "WEBHOOK_DELIVERY") (js "COMPLETED"),
      earlierRow (js "order_3") (js "WEBHOOK_DELIVERY") (js "FAILED")]

theorem isLegacy_firstVersion : IsLegacy (fun _ v => v) firstVersion where
  text := by decide +kernel
  affinity := rfl
  present := by
    intro row hrow c hc
    obtain ⟨key, jobName, status, rfl⟩ : ∃ key jobName status,
        row = earlierRow key jobName status := by
      simp only [firstVersion, List.mem_cons, List.not_mem_nil, or_false] at hrow
      rcases hrow with rfl | rfl | rfl
      · exact ⟨_, _, _, rfl⟩
      · exact ⟨_, _, _, rfl⟩
      · exact ⟨_, _, _, rfl⟩
    cases c with
    | created_at => exact absurd rfl hc
    | _ => exact Option.some_ne_none _
  unique := by decide
  converted := fun _ _ _ _ _ => rfl

def IsComposite (db : StoreDatabase) : Prop :=
  ∃ t, db.get idempotency_records = some t ∧ includes t.sql compositeKey = true

theorem composite_includes_key : includes composite.sql compositeKey = true := by
  rw [includes, decide_eq_true_iff]
  exact (List.infix_append _ compositeKey _).trans (List.suffix_append _ _).isInfix

theorem records_ne_legacy : idempotency_records ≠ idempotency_records_legacy := by decide +kernel

/-! ## The rows of the legacy table -/

section Legacy

variable {convert : Affinity → SqlValue → SqlValue} {t : RecordTable}

/-- No row of a legacy table is ignored by the copy. -/
theorem IsLegacy.copy (h : IsLegacy convert t) :
    (t.rows.map (projectRow copied copied)).foldl (StoredTable.insertOrIgnore convert)
      ⟨composite, []⟩ = ⟨composite, t.rows⟩ := by
  have hall : ∀ c : Column, c ∈ copied := by
    intro c
    cases c <;> decide
  have hproject : t.rows.map (projectRow copied copied) = t.rows := by
    rw [funext (projectRow_self (ν := SqlValue) hall)]
    exact List.map_id t.rows
  rw [hproject, foldl_insertOrIgnore convert]
  · simp
  · intro row hrow c hc
    apply h.present row hrow c
    rintro rfl
    exact absurd hc (by decide)
  · intro row hrow c v hv
    have hconverted := h.converted row hrow c v hv
    rw [h.affinity] at hconverted
    exact hconverted
  · rw [List.nil_append]
    apply (List.pairwise_map.1 h.unique).imp
    intro earlier later hne hsame
    exact hne (hsame .key (by decide)).2.symm

theorem IsLegacy.find?_eq_some (h : IsLegacy convert t) (jobName key : JsString) (row : Record) :
    (t.rows.find? fun row => row .job_name = some (.text jobName) ∧ row .key = some (.text key)) =
        some row ↔
      row ∈ t.rows ∧ row .job_name = some (.text jobName) ∧ row .key = some (.text key) := by
  constructor
  · intro hfind
    have hp := List.find?_some hfind
    exact ⟨List.mem_of_find?_eq_some hfind, by simpa using hp⟩
  · rintro ⟨hmem, hname, hkey⟩
    have hsome : (t.rows.find? fun row =>
        row .job_name = some (.text jobName) ∧ row .key = some (.text key)).isSome := by
      rw [List.find?_isSome]
      exact ⟨row, hmem, by simp [hname, hkey]⟩
    obtain ⟨other, hother⟩ := Option.isSome_iff_exists.1 hsome
    have hp := List.find?_some hother
    simp only [decide_eq_true_eq] at hp
    -- Keys are unique, so the first match is this row.
    have hsame := List.inj_on_of_nodup_map h.unique (List.mem_of_find?_eq_some hother) hmem
      (hp.2.trans hkey.symm)
    rw [hother, hsame]

/-! ## The migration -/

def Rebuilt (t : RecordTable) (db db' : StoreDatabase) : Prop :=
  db'.get idempotency_records = some ⟨composite, t.rows⟩ ∧
    ∀ name, name ≠ idempotency_records → db'.get name = db.get name

/-- The statements of the rebuild are errors where the name of the copy is taken. -/
theorem rebuild_of_taken {db : StoreDatabase} {other : RecordTable}
    (htaken : db.get idempotency_records_legacy = some other) :
    rebuild.foldlM (Statement.apply convert) db = none := by
  have hrename : Statement.apply convert db
      (.renameTable idempotency_records idempotency_records_legacy) = none := by
    rw [Statement.apply, htaken]
    cases db.get idempotency_records <;> rfl
  rw [rebuild, List.foldlM_cons, hrename]
  rfl

theorem IsLegacy.rebuild_of_free (h : IsLegacy convert t) {db : StoreDatabase}
    (hget : db.get idempotency_records = some t)
    (hfree : db.get idempotency_records_legacy = none) :
    ∃ db', rebuild.foldlM (Statement.apply convert) db = some db' ∧ Rebuilt t db db' := by
  let renamed : RecordTable :=
    { t with title := 0x22 :: idempotency_records_legacy ++ [0x22] }
  let db₁ := (db.remove idempotency_records).put idempotency_records_legacy renamed
  let db₂ := db₁.put idempotency_records ⟨composite, []⟩
  let db₃ := db₂.put idempotency_records ⟨composite, t.rows⟩
  have hrename : Statement.apply convert db
      (.renameTable idempotency_records idempotency_records_legacy) = some db₁ := by
    rw [Statement.apply, hget, hfree]
  have hcreate : Statement.apply convert db₁ (.createTable idempotency_records composite) =
      some db₂ := by
    have hgone : db₁.get idempotency_records = none := by
      rw [Table.get_put_of_ne _ _ records_ne_legacy, Table.get_remove_self]
    rw [Statement.apply, hgone]
  have hlegacy : db₂.get idempotency_records_legacy = some renamed := by
    rw [Table.get_put_of_ne _ _ records_ne_legacy.symm, Table.get_put_self]
  have hcopy : Statement.apply convert db₂ (.insertOrIgnoreSelect idempotency_records copied copied
      idempotency_records_legacy) = some db₃ := by
    rw [Statement.apply, hlegacy, Table.get_put_self]
    simp only
    rw [h.copy]
  have hdrop : Statement.apply convert db₃ (.dropTable idempotency_records_legacy) =
      some (db₃.remove idempotency_records_legacy) := by
    have hthere : db₃.get idempotency_records_legacy = some renamed := by
      rw [Table.get_put_of_ne _ _ records_ne_legacy.symm, hlegacy]
    rw [Statement.apply, hthere]
  refine ⟨db₃.remove idempotency_records_legacy, ?_, ?_, fun name hname => ?_⟩
  · simp only [rebuild, List.foldlM_cons, List.foldlM_nil, hrename, hcreate, hcopy, hdrop,
      Option.bind_eq_bind, Option.bind_some, Option.pure_def]
  · rw [Table.get_remove_of_ne _ records_ne_legacy, Table.get_put_self]
  · by_cases hcopyName : name = idempotency_records_legacy
    · rw [hcopyName, Table.get_remove_self, hfree]
    · rw [Table.get_remove_of_ne _ hcopyName, Table.get_put_of_ne _ _ hname,
        Table.get_put_of_ne _ _ hname, Table.get_put_of_ne _ _ hcopyName,
        Table.get_remove_of_ne _ hname]

theorem IsLegacy.rebuilt (h : IsLegacy convert t) {db db' : StoreDatabase}
    (hget : db.get idempotency_records = some t)
    (hdone : rebuild.foldlM (Statement.apply convert) db = some db') : Rebuilt t db db' := by
  cases hleft : db.get idempotency_records_legacy with
  | some other =>
      rw [rebuild_of_taken hleft] at hdone
      cases hdone
  | none =>
      obtain ⟨made, hmade, hrebuilt⟩ := h.rebuild_of_free hget hleft
      obtain rfl := Option.some.inj (hdone.symm.trans hmade)
      exact hrebuilt

theorem Rebuilt.isComposite {db db' : StoreDatabase} (h : Rebuilt t db db') : IsComposite db' :=
  ⟨_, h.1, composite_includes_key⟩

theorem IsLegacy.migrateIfLegacySchema_eq (h : IsLegacy convert t) {db : StoreDatabase}
    (hget : db.get idempotency_records = some t) (fails : Nat → Bool) :
    migrateIfLegacySchema convert fails ⟨db, none⟩ =
      if fails 0 then (false, ⟨db, none⟩)
      else exec convert (fun i => fails (i + 1)) (transaction TaskQueue.IdempotencyDatabase.rebuild)
        ⟨db, none⟩ := by
  have hview : (⟨db, none⟩ : Connection Column Affinity SqlValue).view.get idempotency_records =
      some t := hget
  unfold migrateIfLegacySchema
  simp only [hview, h.text, Bool.false_eq_true, if_false]

end Legacy

/-! ## Openings -/

section Openings

variable (convert : Affinity → SqlValue → SqlValue) (fails : Nat → Bool) {db : StoreDatabase}

theorem rebuild_inner : ∀ s ∈ rebuild, s.Inner := by
  simp [rebuild, Statement.Inner]

/-- A migration that fails leaves what was stored. -/
theorem migrateIfLegacySchema_failed (db : StoreDatabase)
    (hfailed : (migrateIfLegacySchema convert fails ⟨db, none⟩).1 = false) :
    (migrateIfLegacySchema convert fails ⟨db, none⟩).2.stored = db := by
  unfold migrateIfLegacySchema at hfailed ⊢
  split
  · rfl
  · split
    · rfl
    · split
      · rfl
      · rename_i hquery _ existing hexisting htext
        rw [if_neg hquery, hexisting] at hfailed
        simp only [if_neg htext] at hfailed
        rcases exec_transaction convert rebuild_inner (fun i => fails (i + 1)) db with
          ⟨hok, -⟩ | ⟨-, hstored⟩
        · rw [hok] at hfailed
          cases hfailed
        · exact hstored

theorem exec_createTableIfNotExists {t : RecordTable} (hget : db.get idempotency_records = some t) :
    (exec convert fails [.createTableIfNotExists idempotency_records composite]
      ⟨db, none⟩).2 = ⟨db, none⟩ := by
  rw [exec]
  split
  · rfl
  · simp [Connection.run, Statement.apply, hget, exec]

/-- A composite database is left as it is. -/
theorem reopen_of_composite (h : IsComposite db) : reopen convert db fails = db := by
  obtain ⟨t, hget, htext⟩ := h
  rw [reopen, openStore, init, migrateIfLegacySchema]
  by_cases hquery : fails 0
  · simp [hquery]
  · have hview : (⟨db, none⟩ : Connection Column Affinity SqlValue).view.get idempotency_records =
        some t := hget
    simp only [hquery, Bool.false_eq_true, if_false, hview, htext, if_true]
    rw [exec_createTableIfNotExists convert _ hget]

/-- An opening of a legacy database fails and leaves it, or leaves it rebuilt. -/
theorem openStore_of_legacy {t : RecordTable} (h : IsLegacy convert t)
    (hget : db.get idempotency_records = some t) :
    ((openStore convert fails db).1 = false ∧ reopen convert db fails = db) ∨
      ∃ db', Rebuilt t db db' ∧ (openStore convert fails db).2 = ⟨db', none⟩ := by
  rw [reopen, openStore, init, h.migrateIfLegacySchema_eq hget]
  by_cases hquery : fails 0
  · exact Or.inl (by simp [hquery])
  · rw [if_neg hquery]
    rcases exec_transaction convert rebuild_inner (fun i => fails (i + 1)) db with
      ⟨hok, db', hdone, hconn⟩ | ⟨hfailed, hstored⟩
    · have hrebuilt := h.rebuilt hget hdone
      refine Or.inr ⟨db', hrebuilt, ?_⟩
      simp only [hok, if_true, hconn]
      exact exec_createTableIfNotExists convert _ hrebuilt.1
    · exact Or.inl (by simp [hfailed, hstored])

theorem openStore_returns {t : RecordTable} (h : IsLegacy convert t)
    (hget : db.get idempotency_records = some t)
    (hfree : db.get idempotency_records_legacy = none) :
    (openStore convert (fun _ => false) db).1 = true := by
  obtain ⟨db', hdone, hrebuilt⟩ := h.rebuild_of_free hget hfree
  have hexec := transaction_faultless convert rebuild_inner hdone
  rw [openStore, init, h.migrateIfLegacySchema_eq hget, if_neg Bool.false_ne_true, hexec]
  simp [exec, Connection.run, Statement.apply, hrebuilt.1]

/-- An opening of a database without the table creates it, without a row, or leaves it out. -/
theorem reopen_of_fresh (hfresh : db.get idempotency_records = none) :
    reopen convert db fails = db ∨
      reopen convert db fails = db.put idempotency_records ⟨composite, []⟩ := by
  have hview : (⟨db, none⟩ : Connection Column Affinity SqlValue).view.get idempotency_records =
      none := hfresh
  rw [reopen, openStore, init, migrateIfLegacySchema, hview]
  by_cases hquery : fails 0
  · exact Or.inl (by simp [hquery])
  · by_cases hcreate : fails 7
    · exact Or.inl (by simp [hquery, hcreate, exec])
    · exact Or.inr (by simp [hquery, hcreate, exec, Connection.run, Statement.apply, hfresh])

def reopenAll (openings : List (Nat → Bool)) (db : StoreDatabase) : StoreDatabase :=
  openings.foldl (reopen convert) db

theorem reopenAll_of_composite (h : IsComposite db) (openings : List (Nat → Bool)) :
    reopenAll convert openings db = db := by
  induction openings with
  | nil => rfl
  | cons fails openings ih =>
      rw [reopenAll, List.foldl_cons, reopen_of_composite convert fails h]
      exact ih

/-- Openings leave a legacy database as it is until one of them has rebuilt it. -/
theorem reopenAll_of_legacy {t : RecordTable} (h : IsLegacy convert t)
    (hget : db.get idempotency_records = some t) (openings : List (Nat → Bool)) :
    reopenAll convert openings db = db ∨ Rebuilt t db (reopenAll convert openings db) := by
  induction openings with
  | nil => exact Or.inl rfl
  | cons fails openings ih =>
      rw [reopenAll, List.foldl_cons]
      rcases openStore_of_legacy convert fails h hget with ⟨-, hkept⟩ | ⟨db', hrebuilt, hconn⟩
      · rw [hkept]
        exact ih
      · have hstored : reopen convert db fails = db' := by rw [reopen, hconn]
        have hlater : openings.foldl (reopen convert) db' = db' :=
          reopenAll_of_composite convert hrebuilt.isComposite openings
        rw [hstored, hlater]
        exact Or.inr hrebuilt

theorem reopenAll_of_fresh (hfresh : db.get idempotency_records = none)
    (openings : List (Nat → Bool)) :
    reopenAll convert openings db = db ∨
      reopenAll convert openings db = db.put idempotency_records ⟨composite, []⟩ := by
  induction openings with
  | nil => exact Or.inl rfl
  | cons fails openings ih =>
      rw [reopenAll, List.foldl_cons]
      rcases reopen_of_fresh convert fails hfresh with hkept | hcreated
      · rw [hkept]
        exact ih
      · have hcomposite : IsComposite (db.put idempotency_records ⟨composite, []⟩) :=
          ⟨_, Table.get_put_self _ _ _, composite_includes_key⟩
        rw [hcreated]
        exact Or.inr (reopenAll_of_composite convert hcomposite openings)

/-- The composite table, in which the records of a legacy table are found by job
name and key, and nothing else is. -/
def HoldsRecordsOf (legacy : RecordTable) (db : StoreDatabase) : Prop :=
  IsComposite db ∧ ∀ jobName key record, getRecord db jobName key = some record ↔
    record ∈ legacy.rows ∧ record .job_name = some (.text jobName) ∧
      record .key = some (.text key)

variable {convert} in
theorem IsLegacy.holdsRecordsOf {t : RecordTable} {db' : StoreDatabase} (h : IsLegacy convert t)
    (hrebuilt : Rebuilt t db db') : HoldsRecordsOf t db' := by
  refine ⟨hrebuilt.isComposite, fun jobName key record => ?_⟩
  rw [getRecord, hrebuilt.1, Option.bind_some]
  exact h.find?_eq_some jobName key record

/-- Opening the store keeps every record: a legacy table is rebuilt with the
records it had, and it stays as it is when a statement of the migration fails;
later openings, and openings of a composite or a fresh database, change none. -/
theorem openStore_preserves_records (db : StoreDatabase) :
    (∀ legacy, db.get idempotency_records = some legacy → IsLegacy convert legacy →
      (db.get idempotency_records_legacy = none →
        (openStore convert (fun _ => false) db).1 = true) ∧
      (∀ fails, (openStore convert fails db).1 = true →
        HoldsRecordsOf legacy (openStore convert fails db).2.view ∧
        ∀ openings, HoldsRecordsOf legacy (reopenAll convert (fails :: openings) db)) ∧
      ∀ openings, reopenAll convert openings db = db ∨
        HoldsRecordsOf legacy (reopenAll convert openings db)) ∧
    (IsComposite db → ∀ openings, reopenAll convert openings db = db) ∧
    (db.get idempotency_records = none → ∀ openings,
      (∀ jobName key, getRecord (reopenAll convert openings db) jobName key = none) ∧
      ∀ name, name ≠ idempotency_records →
        (reopenAll convert openings db).get name = db.get name) ∧
    ∀ fails, (migrateIfLegacySchema convert fails ⟨db, none⟩).1 = false →
      (migrateIfLegacySchema convert fails ⟨db, none⟩).2.stored = db := by
  refine ⟨fun legacy hget hlegacy => ⟨openStore_returns convert hlegacy hget, ?_, ?_⟩,
    fun h => reopenAll_of_composite convert h, ?_,
    fun fails => migrateIfLegacySchema_failed convert fails db⟩
  · intro fails hok
    rcases openStore_of_legacy convert fails hlegacy hget with ⟨hfailed, -⟩ | ⟨db', hrebuilt, hconn⟩
    · rw [hok] at hfailed
      cases hfailed
    · have hholds := hlegacy.holdsRecordsOf hrebuilt
      refine ⟨?_, fun openings => ?_⟩
      · rw [hconn]
        exact hholds
      · have hstored : reopen convert db fails = db' := by rw [reopen, hconn]
        have hlater : openings.foldl (reopen convert) db' = db' :=
          reopenAll_of_composite convert hrebuilt.isComposite openings
        rw [reopenAll, List.foldl_cons, hstored, hlater]
        exact hholds
  · intro openings
    exact (reopenAll_of_legacy convert hlegacy hget openings).imp_right hlegacy.holdsRecordsOf
  · intro hfresh openings
    rcases reopenAll_of_fresh convert hfresh openings with hkept | hcreated
    · rw [hkept]
      exact ⟨fun _ _ => by rw [getRecord, hfresh]; rfl, fun _ _ => rfl⟩
    · rw [hcreated]
      refine ⟨fun _ _ => ?_, fun name hname => Table.get_put_of_ne _ _ hname⟩
      rw [getRecord, Table.get_put_self]
      rfl

def earlierDatabase : StoreDatabase := Table.put ∅ idempotency_records firstVersion

theorem openStore_preserves_records_firstVersion :
    (openStore (fun _ v => v) (fun _ => false) earlierDatabase).1 = true ∧
      HoldsRecordsOf firstVersion
        (openStore (fun _ v => v) (fun _ => false) earlierDatabase).2.view := by
  have hget : earlierDatabase.get idempotency_records = some firstVersion :=
    Table.get_put_self _ _ _
  have hfree : earlierDatabase.get idempotency_records_legacy = none := by
    rw [earlierDatabase, Table.get_put_of_ne _ _ records_ne_legacy.symm, Table.get_empty]
  obtain ⟨hreturns, hholds, -⟩ := (openStore_preserves_records (fun _ v => v)
    earlierDatabase).1 firstVersion hget isLegacy_firstVersion
  exact ⟨hreturns hfree, (hholds _ (hreturns hfree)).1⟩

/-! ## The rows the worker reads -/

def statusText : RecordStatus → JsString
  | .completed => js "COMPLETED"
  | .failed => js "FAILED"

theorem statusText_injective : Function.Injective statusText := by
  have hne : js "COMPLETED" ≠ js "FAILED" := by decide
  intro a b h
  cases a <;> cases b <;> first | rfl | exact absurd h hne | exact absurd h.symm hne

def columnsOf (record : IdempotencyRecord) : Record
  | .job_name => some (.text record.job_name)
  | .key => some (.text record.key)
  | .status => some (.text (statusText record.status))
  | .result_json => some (.text record.result_json)
  | .created_at => some (.text record.created_at)

/-- The database answers every query with the record of `rows`. -/
def Represents (db : StoreDatabase) (rows : IdempotencyRows) : Prop :=
  ∀ jobName key, getRecord db jobName key = (rows.get (jobName, key)).map columnsOf

theorem Represents.completed_iff {rows : IdempotencyRows} (h : Represents db rows)
    (jobName key : JsString) :
    rows.Completed jobName key ↔ ∃ record, getRecord db jobName key = some record ∧
      record .status = some (.text (js "COMPLETED")) := by
  rw [h jobName key, IdempotencyRows.Completed]
  cases rows.get (jobName, key) with
  | none => simp
  | some record =>
      have hstatus : columnsOf record .status = some (.text (js "COMPLETED")) ↔
          record.status = .completed := by
        rw [columnsOf, Option.some.injEq, SqlValue.text.injEq]
        exact statusText_injective.eq_iff' rfl
      simp [hstatus]

/-- Openings, whatever fails in them, keep what a legacy database answers. -/
theorem Represents.reopenAll {t : RecordTable} {rows : IdempotencyRows}
    (h : Represents db rows) (hlegacy : IsLegacy convert t)
    (hget : db.get idempotency_records = some t) (openings : List (Nat → Bool)) :
    Represents (reopenAll convert openings db) rows := by
  rcases reopenAll_of_legacy convert hlegacy hget openings with hkept | hrebuilt
  · rw [hkept]
    exact h
  · intro jobName key
    have hbefore := h jobName key
    rw [getRecord, hget, Option.bind_some] at hbefore
    rw [getRecord, hrebuilt.1, Option.bind_some]
    exact hbefore

end Openings

end TaskQueue.IdempotencyDatabase
