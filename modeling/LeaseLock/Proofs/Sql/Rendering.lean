import LeaseLock.Proofs.Number.Digits
import LeaseLock.Proofs.Sql.Binding
import LeaseLock.Proofs.Sql.Token

namespace LeaseLock.Sql

def IsIdentifier (name : String) : Prop :=
  ∃ first rest, name.toList = first :: rest ∧ (first.isAlpha ∨ first = '_') ∧
    (∀ c ∈ rest, c.isAlphanum ∨ c = '_') ∧ rest.length ≤ 62

namespace Settings

theorem isNameStart_iff (c : Char) : isNameStart c = true ↔ c.isAlpha ∨ c = '_' := by
  have halpha : c.isAlpha = true ↔ 'A' ≤ c ∧ c ≤ 'Z' ∨ 'a' ≤ c ∧ c ≤ 'z' := by
    change (decide ('A' ≤ c ∧ c ≤ 'Z') || (decide ('a' ≤ c) && decide (c ≤ 'z'))) = true ↔ _
    simp only [Bool.or_eq_true, Bool.and_eq_true, decide_eq_true_eq]
  rw [isNameStart, decide_eq_true_iff, halpha]
  tauto

theorem isNameChar_iff (c : Char) : isNameChar c = true ↔ c.isAlphanum ∨ c = '_' := by
  have halphanum : c.isAlphanum = true ↔ c.isAlpha = true ∨ isDigit c = true := by
    change (c.isAlpha || (decide ('0' ≤ c) && decide (c ≤ '9'))) = true ↔ _
    rw [Bool.or_eq_true, Bool.and_eq_true, decide_eq_true_iff, decide_eq_true_iff, isDigit_iff]
  rw [isNameChar, Bool.or_eq_true, isNameStart_iff, halphanum]
  tauto

theorem isName_iff (name : String) : isName name = true ↔ IsIdentifier name := by
  rw [isName, IsIdentifier]
  cases name.toList with
  | nil => simp
  | cons first rest =>
    simp only [Bool.and_eq_true, isNameStart_iff, List.all_eq_true, isNameChar_iff,
      decide_eq_true_eq, List.cons.injEq]
    constructor
    · rintro ⟨⟨hfirst, hrest⟩, hlength⟩
      exact ⟨first, rest, ⟨rfl, rfl⟩, hfirst, hrest, Nat.le_of_lt_succ hlength⟩
    · rintro ⟨_, _, ⟨rfl, rfl⟩, hfirst, hrest, hlength⟩
      exact ⟨⟨hfirst, hrest⟩, Nat.lt_succ_of_le hlength⟩

theorem nameProblem?_eq_none_iff (field value : String) :
    nameProblem? field value = none ↔ IsIdentifier value := by
  rw [← isName_iff, nameProblem?]
  by_cases hempty : value.isEmpty = true
  · have hname : isName value = false := by
      rw [String.isEmpty_iff.mp hempty]
      rfl
    simp [hempty, hname]
  · simp [hempty]

theorem check_eq_ok_iff (s : Settings) :
    s.check = .ok () ↔ IsIdentifier s.lockSchema ∧ IsIdentifier s.lockTable ∧
      IsIdentifier s.migrationSchema ∧ IsIdentifier s.migrationTable ∧
      s.lockTable ≠ s.migrationTable := by
  have hclean : s.check = .ok () ↔ s.problems = [] := by
    rw [check, ← List.isEmpty_iff]
    by_cases hproblems : s.problems.isEmpty = true
    · simp only [hproblems, if_true]
    · simp [hproblems]
  have hempty : ¬IsIdentifier "" := by
    rw [← isName_iff]
    decide
  rw [hclean, problems, List.append_eq_nil_iff, List.filterMap_eq_nil_iff]
  simp only [List.forall_mem_cons, id_eq, nameProblem?_eq_none_iff]
  constructor
  · rintro ⟨⟨hschema, htable, hmigrations, hmigrated, -⟩, hsame⟩
    refine ⟨hschema, htable, hmigrations, hmigrated, ?_⟩
    intro heq
    have hblank : s.lockTable = "" := by simpa [heq] using hsame
    exact hempty (hblank ▸ htable)
  · rintro ⟨hschema, htable, hmigrations, hmigrated, hne⟩
    refine ⟨⟨hschema, htable, hmigrations, hmigrated, by simp⟩, ?_⟩
    simp [hne]

end Settings

theorem IsIdentifier.quote_not_mem {name : String} (h : IsIdentifier name) : '"' ∉ name.toList := by
  obtain ⟨first, rest, hname, hfirst, hrest, -⟩ := h
  rw [hname, List.mem_cons]
  rintro (rfl | hmem)
  · exact absurd hfirst (by decide)
  · exact absurd (hrest _ hmem) (by decide)

def Dialect.placeholders (d : Dialect) (count : Nat) : List String :=
  match d with
  | .postgres => (List.range count).map fun i => "$" ++ toString (i + 1)
  | _ => List.replicate count "?"

def Dialect.tableTokens (d : Dialect) (s : Settings) : List Token :=
  match d with
  | .postgres => [.name s.lockSchema, .symbol ".", .name s.lockTable]
  | _ => [.name s.lockTable]

theorem Mode.read_table {s : Settings} (hcheck : s.check = .ok ()) (d : Dialect) {c : Char}
    (hc : c ≠ '"') (rest : List Char) :
    Mode.between.read ((d.table s).toList ++ c :: rest) =
      (d.tableTokens s ++ (Mode.between.read (c :: rest)).1, (Mode.between.read (c :: rest)).2) := by
  obtain ⟨hschema, htable, -⟩ := (Settings.check_eq_ok_iff s).mp hcheck
  have htable := Mode.read_quoted htable.quote_not_mem hc rest
  cases d with
  | postgres =>
    have hschema := Mode.read_quoted hschema.quote_not_mem (c := '.') (by decide)
      ('"' :: (s.lockTable.toList ++ '"' :: c :: rest))
    have hdot : ∀ more, Mode.between.read ('.' :: '"' :: more) =
        (.symbol "." :: (Mode.between.read ('"' :: more)).1,
          (Mode.between.read ('"' :: more)).2) := fun more => rfl
    rw [hdot, htable, String.ofList_toList, String.ofList_toList] at hschema
    simpa [Dialect.table, Dialect.quotedName, Dialect.tableTokens] using hschema
  | sqlite | mysql =>
    rw [String.ofList_toList] at htable
    simpa [Dialect.table, Dialect.quotedName, Dialect.tableTokens] using htable

namespace Statement

def head (d : Dialect) : Statement → String
  | .acquire => "INSERT INTO "
  | .release => "DELETE FROM "
  | .renew => "UPDATE "
  | .isHeld => "SELECT valid_until - " ++ d.now ++ " AS remaining_ms FROM "

def render (d : Dialect) (table : String) : Statement → String
  | .acquire => Statements.acquireText d table
  | .release => Statements.releaseText d table
  | .renew => Statements.renewText d table
  | .isHeld => Statements.isHeldText d table

def tail (d : Dialect) (statement : Statement) : List Char :=
  (statement.render d "").toList.drop (statement.head d).toList.length

theorem exists_rest (d : Dialect) (statement : Statement) :
    ∃ rest, ∀ table, statement.render d table = statement.head d ++ (table ++ rest) := by
  unfold render head Statements.acquireText Statements.releaseText Statements.renewText
    Statements.isHeldText
  cases statement
  all_goals
    constructor
    intro table
    simp only [String.append_assoc, -String.reduceAppend]
    exact rfl

theorem render_eq (d : Dialect) (table : String) (statement : Statement) :
    (statement.render d table).toList =
      (statement.head d).toList ++ (table.toList ++ statement.tail d) := by
  obtain ⟨rest, hrest⟩ := exists_rest d statement
  rw [tail, hrest, hrest]
  simp only [String.toList_append, String.toList_empty, List.nil_append, List.drop_left]

def before (d : Dialect) (statement : Statement) : List Token :=
  (Mode.between.read (statement.head d).toList).1

def after (d : Dialect) (statement : Statement) : List Token :=
  (Mode.between.read (statement.tail d)).1 ++
    (Mode.between.read (statement.tail d)).2.token?.toList

theorem read_frame (d : Dialect) (statement : Statement) :
    (Mode.between.read (statement.head d).toList).2 = .between ∧
      (statement.tail d).head? = some ' ' ∧
      (Mode.between.read (statement.tail d)).2.isOpen = false ∧
      (statement.before d ++ statement.after d).filterMap Token.parameter? =
        d.placeholders statement.arity := by
  unfold before after tail render head Statements.acquireText Statements.releaseText
    Statements.renewText Statements.isHeldText Dialect.parameter Dialect.now Dialect.greatest
    decimalText
  -- The kernel decodes a long string slowly; its literal parts are lists of characters already.
  cases d
  all_goals
    cases statement
    all_goals
      simp only [String.toList_append, -String.reduceToList, -String.reduceAppend]
      repeat rw [String.toList_ofList]
      decide +kernel

theorem tokens?_render {s : Settings} (hcheck : s.check = .ok ()) (d : Dialect)
    (statement : Statement) :
    tokens? (statement.render d (d.table s)) =
      some (statement.before d ++ d.tableTokens s ++ statement.after d) := by
  obtain ⟨hhead, hblank, hend, -⟩ := read_frame d statement
  obtain ⟨rest, htail⟩ := List.head?_eq_some_iff.mp hblank
  have htable := Mode.read_table hcheck d (c := ' ') (by decide) rest
  rw [← htail] at htable
  rw [tokens?, render_eq, Mode.read_append, hhead, htable]
  simp only [hend, before, after, List.append_assoc]
  rfl

end Statement

theorem Dialect.parameters_tableTokens (d : Dialect) (s : Settings) :
    (d.tableTokens s).filterMap Token.parameter? = [] := by
  cases d <;> rfl

namespace Statements

theorem render_eq_ok_iff {d : Dialect} {s : Settings} {statements : Statements} :
    render d s = .ok statements ↔ d ≠ .mysql ∧ s.check = .ok () ∧
      statements = ⟨d, d.table s, acquireText d (d.table s), releaseText d (d.table s),
        renewText d (d.table s), isHeldText d (d.table s), "SELECT CAST(1 AS BIGINT) AS ok"⟩ := by
  have hsupported : d.isSupported = true ↔ d ≠ .mysql := bne_iff_ne
  by_cases hd : d.isSupported = true
  · cases hcheck : s.check with
    | error fault => simp [render, hd, hcheck]
    | ok _ => simp [render, hd, hcheck, ← hsupported, eq_comm]
  · simp [render, hd, ← hsupported]

theorem text_of_render {d : Dialect} {s : Settings} {statements : Statements}
    (h : render d s = .ok statements) (statement : Statement) :
    statements.text statement = statement.render d (d.table s) := by
  obtain ⟨-, -, rfl⟩ := render_eq_ok_iff.mp h
  cases statement <;> rfl

/-- Statements are rendered for the two dialects with support, from four identifiers of which the
two tables differ. Each is read as the statement for the standard settings with other names for
the table, and takes as many parameters, in their order, as a call binds values to it. -/
theorem render_unaltered (d : Dialect) (s : Settings) :
    ((∃ statements, render d s = .ok statements) ↔
      (d = .postgres ∨ d = .sqlite) ∧ IsIdentifier s.lockSchema ∧ IsIdentifier s.lockTable ∧
        IsIdentifier s.migrationSchema ∧ IsIdentifier s.migrationTable ∧
        s.lockTable ≠ s.migrationTable) ∧
    ∀ statements, render d s = .ok statements →
      ∃ standard, render d .standard = .ok standard ∧ ∀ statement : Statement,
        ∃ before after count,
          tokens? (standard.text statement) =
            some (before ++ d.tableTokens .standard ++ after) ∧
          tokens? (statements.text statement) = some (before ++ d.tableTokens s ++ after) ∧
          (before ++ d.tableTokens s ++ after).filterMap Token.parameter? =
            d.placeholders count ∧
          ∀ newNonce call values, Statement.ofCall? call = some statement →
            Store.values newNonce call = .ok values → values.length = count ∧
              ∀ (store : Store) (now : Int) (t : LeaseTable), store.table = .ok t →
                (store.applyAt now newNonce call).state =
                  store.withTable (t.execute now statement values) := by
  have hdialect : d ≠ .mysql ↔ d = .postgres ∨ d = .sqlite := by cases d <;> decide
  constructor
  · simp only [render_eq_ok_iff, Settings.check_eq_ok_iff, hdialect, exists_and_left, exists_eq,
      and_true]
  · intro statements hrender
    obtain ⟨hd, hcheck, -⟩ := render_eq_ok_iff.mp hrender
    have hstandard : Settings.standard.check = .ok () := by decide +kernel
    have hstandardRender := render_eq_ok_iff.mpr ⟨hd, hstandard, rfl⟩
    refine ⟨_, hstandardRender, fun statement => ?_⟩
    refine ⟨statement.before d, statement.after d, statement.arity, ?_, ?_, ?_, ?_⟩
    · rw [text_of_render hstandardRender]
      exact Statement.tokens?_render hstandard d statement
    · rw [text_of_render hrender]
      exact Statement.tokens?_render hcheck d statement
    · rw [List.filterMap_append, List.filterMap_append, Dialect.parameters_tableTokens,
        List.append_nil, ← List.filterMap_append]
      exact (Statement.read_frame d statement).2.2.2
    · intro newNonce call values hcall hvalues
      refine ⟨Store.length_values hcall hvalues, fun store now t htable => ?_⟩
      exact Store.state_applyAt now htable hcall hvalues

def renamed : Settings := ⟨"locks", "held_keys", "public", "history"⟩

theorem render_unaltered_renamed : ∃ statements, render .postgres renamed = .ok statements ∧
    ∃ before after,
      tokens? statements.release =
        some (before ++ [.name "locks", .symbol ".", .name "held_keys"] ++ after) ∧
      (before ++ Dialect.postgres.tableTokens renamed ++ after).filterMap Token.parameter? =
        ["$1", "$2", "$3"] := by
  have hcheck : renamed.check = .ok () := by decide +kernel
  have hrender : render .postgres renamed = .ok _ :=
    render_eq_ok_iff.mpr ⟨by decide, hcheck, rfl⟩
  obtain ⟨standard, -, hsame⟩ := (render_unaltered .postgres renamed).2 _ hrender
  obtain ⟨before, after, count, -, htokens, hparameters, hvalues⟩ := hsame .release
  obtain ⟨rfl, -⟩ := hvalues "" (.release "job" "lease" "nonce") _ rfl rfl
  exact ⟨_, hrender, before, after, htokens, hparameters⟩

end Statements

end LeaseLock.Sql
