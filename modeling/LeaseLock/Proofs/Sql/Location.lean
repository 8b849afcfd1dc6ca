import LeaseLock.Proofs.Sql.Rendering

namespace LeaseLock.Sql

def Token.folded : Token → Token
  | .name text => .name (String.ofList (lowerAscii text.toList))
  | token => token

/-- Whether a database takes two names in quotes for the same table. Names are exact where tables
have schemas; where they have none, case makes no difference. -/
def Dialect.SameTable (d : Dialect) (first second : List Token) : Prop :=
  match d with
  | .postgres => first = second
  | _ => first.map Token.folded = second.map Token.folded

instance (d : Dialect) (first second : List Token) : Decidable (d.SameTable first second) :=
  match d with
  | .postgres => inferInstanceAs (Decidable (first = second))
  | .sqlite | .mysql =>
    inferInstanceAs (Decidable (first.map Token.folded = second.map Token.folded))

def Settings.bookkeeping (s : Settings) : Settings :=
  { s with lockSchema := s.migrationSchema, lockTable := s.migrationTable }

theorem Mode.read_lastQuoted {name : List Char} (hname : '"' ∉ name) :
    Mode.between.read ('"' :: (name ++ ['"'])) = ([], .nameQuote name) := by
  have hopen : Mode.between.read ('"' :: (name ++ ['"'])) =
      (Mode.name []).read (name ++ ['"']) := rfl
  rw [hopen, read_name hname, List.nil_append]
  rfl

theorem Dialect.tokens?_table {s : Settings} (hschema : IsIdentifier s.lockSchema)
    (htable : IsIdentifier s.lockTable) (d : Dialect) :
    tokens? (d.table s) = some (d.tableTokens s) := by
  have hlast := Mode.read_lastQuoted htable.quote_not_mem
  cases d with
  | postgres =>
    have hfirst := Mode.read_quoted hschema.quote_not_mem (c := '.') (by decide)
      ('"' :: (s.lockTable.toList ++ ['"']))
    have hdot : Mode.between.read ('.' :: '"' :: (s.lockTable.toList ++ ['"'])) =
        (.symbol "." :: (Mode.between.read ('"' :: (s.lockTable.toList ++ ['"']))).1,
          (Mode.between.read ('"' :: (s.lockTable.toList ++ ['"']))).2) := rfl
    rw [hdot, hlast, String.ofList_toList] at hfirst
    simp [tokens?, Dialect.table, Dialect.quotedName, Dialect.tableTokens, hfirst, Mode.isOpen,
      Mode.token?]
  | sqlite | mysql =>
    simp [tokens?, Dialect.table, Dialect.quotedName, Dialect.tableTokens, hlast, Mode.isOpen,
      Mode.token?]

theorem Dialect.sameTable_sqlite_iff (s : Settings) :
    sqlite.SameTable (sqlite.tableTokens s) (sqlite.tableTokens s.bookkeeping) ↔
      lowerAscii s.lockTable.toList = lowerAscii s.migrationTable.toList := by
  simp [SameTable, tableTokens, Token.folded, Settings.bookkeeping, String.ofList_inj]

theorem Dialect.not_sameTable_postgres {s : Settings} (h : s.lockTable ≠ s.migrationTable) :
    ¬postgres.SameTable (postgres.tableTokens s) (postgres.tableTokens s.bookkeeping) := by
  simp [SameTable, tableTokens, Settings.bookkeeping, h]

namespace Store

theorem table_of_only (s : Settings) (statements : Statements) (name : String) (t : LeaseTable) :
    (⟨s, statements, .open ⟨name, some t⟩⟩ : Store).table = .ok t ↔
      lowerAscii name.toList = lowerAscii s.lockTable.toList := by
  simp only [table]
  split <;> simp_all

end Store

namespace Statements

variable {d : Dialect} {s : Settings} {statements : Statements}

/-- Wherever statements are rendered, they name a table, and the bookkeeping has a name like it.
With schemas the two are different tables. Without them they are, unless their names differ in the
case of letters only; then a store reads and writes the table of the bookkeeping. -/
theorem tables_apart_up_to_case (h : render d s = .ok statements) :
    ∃ lease bookkeeping, tokens? statements.table = some lease ∧
      tokens? (d.table s.bookkeeping) = some bookkeeping ∧
      (d = .postgres → ¬d.SameTable lease bookkeeping) ∧
      (d = .sqlite →
        (d.SameTable lease bookkeeping ↔
          lowerAscii s.lockTable.toList = lowerAscii s.migrationTable.toList) ∧
        ∀ t, (⟨s, statements, .open ⟨s.migrationTable, some t⟩⟩ : Store).table = .ok t ↔
          d.SameTable lease bookkeeping) := by
  obtain ⟨-, hcheck, rfl⟩ := render_eq_ok_iff.mp h
  obtain ⟨hschema, htable, hmigrations, hmigrated, hne⟩ := (Settings.check_eq_ok_iff s).mp hcheck
  have hbookkeeping := d.tokens?_table (s := s.bookkeeping) hmigrations hmigrated
  refine ⟨_, _, d.tokens?_table hschema htable, hbookkeeping, ?_, ?_⟩
  · rintro rfl
    exact Dialect.not_sameTable_postgres hne
  · rintro rfl
    have hsame := Dialect.sameTable_sqlite_iff s
    refine ⟨hsame, fun t => ?_⟩
    rw [hsame, eq_comm (a := lowerAscii s.lockTable.toList)]
    exact Store.table_of_only s _ s.migrationTable t

def twoSpellings : Settings := ⟨"public", "Jobs", "public", "jobs"⟩

theorem tables_apart_up_to_case_exact :
    ∃ statements, render .postgres twoSpellings = .ok statements ∧
    tokens? statements.table = some [.name "public", .symbol ".", .name "Jobs"] ∧
    ∃ bookkeeping, tokens? "\"public\".\"jobs\"" = some bookkeeping ∧
      ¬Dialect.postgres.SameTable [.name "public", .symbol ".", .name "Jobs"] bookkeeping := by
  have hcheck : twoSpellings.check = .ok () := by decide +kernel
  have hrender : render .postgres twoSpellings = .ok _ :=
    render_eq_ok_iff.mpr ⟨by decide, hcheck, rfl⟩
  obtain ⟨lease, bookkeeping, hlease, hbookkeeping, hapart, -⟩ := tables_apart_up_to_case hrender
  have htokens : tokens? (Dialect.postgres.table twoSpellings) =
      some [.name "public", .symbol ".", .name "Jobs"] := by decide +kernel
  obtain rfl := Option.some.inj (htokens.symm.trans hlease)
  exact ⟨_, hrender, htokens, bookkeeping, hbookkeeping, hapart rfl⟩

/-- The check lets two spellings of one name pass, and a lease is written into the table of the
bookkeeping. -/
theorem lease_among_bookkeeping :
    twoSpellings.check = .ok () ∧
    Dialect.sqlite.SameTable (Dialect.sqlite.tableTokens twoSpellings)
      (Dialect.sqlite.tableTokens twoSpellings.bookkeeping) ∧
    ∃ store events,
      Store.new .sqlite twoSpellings (.open ⟨twoSpellings.migrationTable, some .empty⟩) =
        .ok (store, events) ∧
      (store.acquire 1700000000000 ⟨"job", "first", "n1", .ofSeconds 10, ""⟩).state.connection =
        .open ⟨"jobs", some ⟨[("job",
          ⟨"first", "n1", 1700000010010, 10000, "", 1700000000000, 1700000000000⟩)]⟩⟩ := by
  refine ⟨by decide +kernel, by decide +kernel, _, _, rfl, ?_⟩
  decide +kernel

end Statements

end LeaseLock.Sql
