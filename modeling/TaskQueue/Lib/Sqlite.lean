import TaskQueue.Lib.JsString
import TaskQueue.Lib.Table

/-!
# Statements of an SQLite script

A connection sees what is on disk, or the transaction it has open over it.  A
script stops at the first statement that fails and leaves the connection as it
is; what is on disk is then what the connection leaves when it ends, because an
open transaction is discarded.  A row lists a value or `NULL` for each column,
and `convert` is the conversion a column's declared type asks for when a value
is stored in it.
-/

namespace Sqlite

open Ecma

variable {κ α ν : Type*}

abbrev Row (κ ν : Type*) := κ → Option ν

/-- A table definition: its name and column list as written, the type affinity of
its columns and its constraints. -/
structure Definition (κ α : Type*) where
  title : JsString
  body : JsString
  affinity : κ → α
  notNull : List κ
  primaryKey : List κ

structure StoredTable (κ α ν : Type*) extends Definition κ α where
  rows : List (Row κ ν)

abbrev Database (κ α ν : Type*) := Table JsString (StoredTable κ α ν)

/-- The text of a definition in `sqlite_master`. -/
def Definition.sql (d : Definition κ α) : JsString :=
  js "CREATE TABLE " ++ d.title ++ js " " ++ d.body

/-- Two rows have the same primary key; a `NULL` in it equals nothing. -/
def Definition.SameKey (d : Definition κ α) (row other : Row κ ν) : Prop :=
  ∀ c ∈ d.primaryKey, row c ≠ none ∧ row c = other c

def Definition.Complete (d : Definition κ α) (row : Row κ ν) : Prop :=
  ∀ c ∈ d.notNull, row c ≠ none

/-- The values of a row are as the types of their columns keep them. -/
def Definition.Converted (convert : α → ν → ν) (d : Definition κ α) (row : Row κ ν) : Prop :=
  ∀ c, ∀ v ∈ row c, convert (d.affinity c) v = v

section Statements

variable [DecidableEq κ] [DecidableEq ν] (convert : α → ν → ν)

instance (d : Definition κ α) (row other : Row κ ν) : Decidable (d.SameKey row other) :=
  inferInstanceAs (Decidable (∀ c ∈ d.primaryKey, row c ≠ none ∧ row c = other c))

instance (d : Definition κ α) (row : Row κ ν) : Decidable (d.Complete row) :=
  inferInstanceAs (Decidable (∀ c ∈ d.notNull, row c ≠ none))

/-- `INSERT OR IGNORE` of one row: skipped where a constraint is violated. -/
def StoredTable.insertOrIgnore (t : StoredTable κ α ν) (row : Row κ ν) : StoredTable κ α ν :=
  let stored := fun c => (row c).map (convert (t.affinity c))
  if t.Complete stored ∧ ∀ other ∈ t.rows, ¬ t.SameKey stored other then
    { t with rows := t.rows ++ [stored] }
  else t

/-- The row that puts the selected columns, in their order, into the named ones. -/
def projectRow (columns selected : List κ) (row : Row κ ν) : Row κ ν :=
  fun c => ((columns.zip selected).find? fun pair => pair.1 = c).bind fun pair => row pair.2

inductive Statement (κ α : Type*)
  | beginTransaction
  | commit
  | renameTable (name newName : JsString)
  | createTable (name : JsString) (definition : Definition κ α)
  | createTableIfNotExists (name : JsString) (definition : Definition κ α)
  | insertOrIgnoreSelect (into : JsString) (columns selected : List κ) (source : JsString)
  | dropTable (name : JsString)

def Statement.apply (db : Database κ α ν) : Statement κ α → Option (Database κ α ν)
  | .beginTransaction => some db
  | .commit => some db
  | .renameTable name newName =>
      match db.get name, db.get newName with
      -- The text of the definition gets the new name, in double quotes.
      | some t, none =>
          some ((db.remove name).put newName { t with title := 0x22 :: newName ++ [0x22] })
      | _, _ => none
  | .createTable name definition =>
      match db.get name with
      | some _ => none
      | none => some (db.put name ⟨definition, []⟩)
  | .createTableIfNotExists name definition =>
      match db.get name with
      | some _ => some db
      | none => some (db.put name ⟨definition, []⟩)
  | .insertOrIgnoreSelect into columns selected source =>
      match db.get into, db.get source with
      | some t, some s =>
          some (db.put into
            ((s.rows.map (projectRow columns selected)).foldl
              (StoredTable.insertOrIgnore convert) t))
      | _, _ => none
  | .dropTable name =>
      match db.get name with
      | some _ => some (db.remove name)
      | none => none

/-- What is on disk, and the open transaction. -/
structure Connection (κ α ν : Type*) where
  stored : Database κ α ν
  pending : Option (Database κ α ν)

def Connection.view (conn : Connection κ α ν) : Database κ α ν := conn.pending.getD conn.stored

def Connection.run (conn : Connection κ α ν) (s : Statement κ α) : Option (Connection κ α ν) :=
  match s, conn.pending with
  | .beginTransaction, none => some { conn with pending := some conn.stored }
  | .beginTransaction, some _ => none
  | .commit, some db => some ⟨db, none⟩
  | .commit, none => none
  | s, some db => (s.apply convert db).map fun db' => { conn with pending := some db' }
  | s, none => (s.apply convert conn.stored).map fun db' => { conn with stored := db' }

/-- `db.exec(script)`: whether it returned, and the connection it leaves.  The
statement at position `i` of the script fails when `fails i` says so. -/
def exec (fails : Nat → Bool) : List (Statement κ α) → Connection κ α ν →
    Bool × Connection κ α ν
  | [], conn => (true, conn)
  | s :: script, conn =>
      if fails 0 then (false, conn)
      else match conn.run convert s with
        | some conn' => exec (fun i => fails (i + 1)) script conn'
        | none => (false, conn)

/-! ## Copying rows -/

omit [DecidableEq ν] in
theorem projectRow_self {columns : List κ} (hall : ∀ c, c ∈ columns) (row : Row κ ν) :
    projectRow columns columns row = row := by
  funext c
  have hmem := hall c
  clear hall
  unfold projectRow
  induction columns with
  | nil => cases hmem
  | cons d columns ih =>
      rw [List.zip_cons_cons, List.find?_cons]
      by_cases hd : d = c
      · simp [hd]
      · have htail : c ∈ columns := by
          rcases List.mem_cons.1 hmem with h | h
          · exact absurd h.symm hd
          · exact h
        simpa [hd] using ih htail

omit [DecidableEq κ] in
/-- A row that violates nothing is stored as it is. -/
theorem insertOrIgnore_of_new {t : StoredTable κ α ν} {row : Row κ ν} (hcomplete : t.Complete row)
    (hconverted : t.Converted convert row) (hnew : ∀ other ∈ t.rows, ¬ t.SameKey row other) :
    t.insertOrIgnore convert row = { t with rows := t.rows ++ [row] } := by
  have hstored : (fun c => (row c).map (convert (t.affinity c))) = row := by
    funext c
    cases hc : row c with
    | none => rfl
    | some v => rw [Option.map_some, hconverted c v hc]
  simp only [StoredTable.insertOrIgnore, hstored]
  rw [if_pos ⟨hcomplete, hnew⟩]

omit [DecidableEq κ] in
/-- Rows of distinct keys that violate nothing are all stored, in their order. -/
theorem foldl_insertOrIgnore {rows : List (Row κ ν)} (t : StoredTable κ α ν)
    (hcomplete : ∀ row ∈ rows, t.Complete row)
    (hconverted : ∀ row ∈ rows, t.Converted convert row)
    (hdistinct : (t.rows ++ rows).Pairwise fun earlier later => ¬ t.SameKey later earlier) :
    rows.foldl (StoredTable.insertOrIgnore convert) t = { t with rows := t.rows ++ rows } := by
  induction rows generalizing t with
  | nil => simp
  | cons row rows ih =>
      have hnew : ∀ other ∈ t.rows, ¬ t.SameKey row other := by
        intro other hother
        exact (List.pairwise_append.1 hdistinct).2.2 other hother row (by simp)
      rw [List.foldl_cons, insertOrIgnore_of_new convert (hcomplete row (by simp))
        (hconverted row (by simp)) hnew, ih]
      · simp
      · exact fun r hr => hcomplete r (by simp [hr])
      · exact fun r hr => hconverted r (by simp [hr])
      · simpa using hdistinct

/-! ## Transactions -/

def Statement.Inner : Statement κ α → Prop
  | .beginTransaction | .commit => False
  | _ => True

theorem run_of_pending {s : Statement κ α} (hs : s.Inner) (stored db : Database κ α ν) :
    (⟨stored, some db⟩ : Connection κ α ν).run convert s =
      (s.apply convert db).map fun db' => ⟨stored, some db'⟩ := by
  cases s <;> first | exact absurd hs id | rfl

/-- A script ends early, or it executes what its statements do in their order. -/
theorem exec_append (fails : Nat → Bool) (first second : List (Statement κ α))
    (conn : Connection κ α ν) :
    exec convert fails (first ++ second) conn =
      if (exec convert fails first conn).1 then
        exec convert (fun i => fails (i + first.length)) second (exec convert fails first conn).2
      else exec convert fails first conn := by
  induction first generalizing fails conn with
  | nil => simp [exec]
  | cons s first ih =>
      rw [List.cons_append, exec, exec]
      by_cases hfail : fails 0
      · simp [hfail]
      · cases hrun : conn.run convert s with
        | none => simp [hfail]
        | some conn' =>
            simp only [hfail, Bool.false_eq_true, if_false]
            exact ih (fun i => fails (i + 1)) conn'

/-- Inside a transaction the disk does not change, and a script that returns has
done what its statements do. -/
theorem exec_inner {script : List (Statement κ α)} (hinner : ∀ s ∈ script, s.Inner)
    (fails : Nat → Bool) (stored db : Database κ α ν) :
    (exec convert fails script ⟨stored, some db⟩).2.stored = stored ∧
      ((exec convert fails script ⟨stored, some db⟩).1 = true →
        ∃ db', script.foldlM (Statement.apply convert) db = some db' ∧
          (exec convert fails script ⟨stored, some db⟩).2 = ⟨stored, some db'⟩) := by
  induction script generalizing fails db with
  | nil => exact ⟨rfl, fun _ => ⟨db, rfl, rfl⟩⟩
  | cons s script ih =>
      rw [exec, run_of_pending convert (hinner s (by simp))]
      by_cases hfail : fails 0
      · simp [hfail]
      · cases happly : s.apply convert db with
        | none => simp [hfail]
        | some db' =>
            have htail := ih (fun s hs => hinner s (by simp [hs])) (fun i => fails (i + 1)) db'
            simpa [hfail, happly] using htail

theorem exec_commit (fails : Nat → Bool) (stored db : Database κ α ν) :
    exec convert fails [.commit] ⟨stored, some db⟩ =
      if fails 0 then (false, ⟨stored, some db⟩) else (true, ⟨db, none⟩) := rfl

def transaction (body : List (Statement κ α)) : List (Statement κ α) :=
  .beginTransaction :: body ++ [.commit]

/-- A transaction is on disk as a whole, or, where any of its statements failed,
not at all. -/
theorem exec_transaction {body : List (Statement κ α)} (hinner : ∀ s ∈ body, s.Inner)
    (fails : Nat → Bool) (db : Database κ α ν) :
    ((exec convert fails (transaction body) ⟨db, none⟩).1 = true ∧
      ∃ db', body.foldlM (Statement.apply convert) db = some db' ∧
        (exec convert fails (transaction body) ⟨db, none⟩).2 = ⟨db', none⟩) ∨
    ((exec convert fails (transaction body) ⟨db, none⟩).1 = false ∧
      (exec convert fails (transaction body) ⟨db, none⟩).2.stored = db) := by
  rw [transaction, List.cons_append, exec]
  by_cases hbegin : fails 0
  · exact Or.inr (by simp [hbegin])
  · have hrun : (⟨db, none⟩ : Connection κ α ν).run convert .beginTransaction =
        some ⟨db, some db⟩ :=
      rfl
    have hscript := exec_inner convert hinner (fun i => fails (i + 1)) db db
    simp only [hbegin, Bool.false_eq_true, if_false, hrun, exec_append]
    generalize exec convert (fun i => fails (i + 1)) body ⟨db, some db⟩ = outcome at hscript ⊢
    cases hok : outcome.1 with
    | false => exact Or.inr (by simpa [hok] using hscript.1)
    | true =>
        obtain ⟨db', happly, hconn⟩ := hscript.2 hok
        rw [if_pos rfl, hconn, exec_commit]
        split
        · exact Or.inr ⟨rfl, rfl⟩
        · exact Or.inl ⟨rfl, db', happly, rfl⟩

theorem exec_faultless {script : List (Statement κ α)} (hinner : ∀ s ∈ script, s.Inner)
    {stored db db' : Database κ α ν}
    (hdone : script.foldlM (Statement.apply convert) db = some db') :
    exec convert (fun _ => false) script ⟨stored, some db⟩ = (true, ⟨stored, some db'⟩) := by
  induction script generalizing db with
  | nil =>
      obtain rfl := Option.some.inj hdone
      rfl
  | cons s script ih =>
      rw [List.foldlM_cons] at hdone
      obtain ⟨middle, happly, hrest⟩ := Option.bind_eq_some_iff.1 hdone
      rw [exec, run_of_pending convert (hinner s (by simp)), happly]
      exact ih (fun s hs => hinner s (by simp [hs])) hrest

theorem transaction_faultless {body : List (Statement κ α)} (hinner : ∀ s ∈ body, s.Inner)
    {db db' : Database κ α ν} (hdone : body.foldlM (Statement.apply convert) db = some db') :
    exec convert (fun _ => false) (transaction body) ⟨db, none⟩ = (true, ⟨db', none⟩) := by
  have hbody : exec convert (fun _ => false) body ⟨db, some db⟩ = (true, ⟨db, some db'⟩) :=
    exec_faultless convert hinner hdone
  rw [transaction, List.cons_append, exec, if_neg Bool.false_ne_true]
  simp only [Connection.run]
  rw [exec_append, hbody]
  rfl

end Statements
end Sqlite
