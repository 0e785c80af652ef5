import Ekafleet.Lib.SqlLexer
import Ekafleet.Lib.Text
import Mathlib.Data.String.Basic

/-! SQL statements of the database drivers | source: secrets/db_driver.rs, secrets/dynamic.rs

    Names and passwords are written into the statements between quotes. Each escape function is
    compared with what the database reads between those quotes. -/

namespace Ekafleet.Secrets

open Sql

/-- What a database user may do. -/
inductive Permissions where | readOnly | readWrite | admin
  deriving DecidableEq, Repr

/-- What a role grants. -/
structure RoleTemplate where
  database : String
  permissions : Permissions
  deriving DecidableEq, Repr

/-- The template of a role. -/
def parseRole (roleName database : String) : RoleTemplate where
  database := database
  permissions :=
    if roleName ∈ ["readonly", "ro", "read"] then .readOnly
    else if roleName ∈ ["readwrite", "rw", "write"] then .readWrite
    else if roleName ∈ ["admin", "superuser", "all"] then .admin
    else .readOnly

/-- The user name `generate_credentials` makes up. -/
def credentialsUsername (serviceName role hex : String) : String := s!"v-{serviceName}-{role}-{hex}"

/-! ### Quoting -/

def replaceChar (c : Char) (text s : String) : String :=
  String.ofList (s.toList.flatMap fun x => if x = c then text.toList else [x])

def singleQuote : Char := Char.ofNat 39

def doubleQuote : Char := Char.ofNat 34

def backtick : Char := Char.ofNat 96

def backslash : Char := Char.ofNat 92

def escapePgIdent (s : String) : String := replaceChar doubleQuote "\"\"" s

def escapePgLiteral (s : String) : String := replaceChar singleQuote "''" s

def escapeMysqlIdent (s : String) : String :=
  replaceChar singleQuote "\\'" (replaceChar backtick "``" s)

def escapeMysqlLiteral (s : String) : String :=
  replaceChar singleQuote "\\'" (replaceChar backslash "\\\\" s)

/-! ### PostgreSQL -/

/-- The date and time in `Rfc3339`. -/
structure Timestamp where
  (year month day hour minute second : ℕ)

def pgTimestamp (t : Timestamp) : String :=
  Text.padded 4 t.year ++ "-" ++ Text.padded 2 t.month ++ "-" ++ Text.padded 2 t.day ++ "T" ++
    Text.padded 2 t.hour ++ ":" ++ Text.padded 2 t.minute ++ ":" ++ Text.padded 2 t.second ++ "Z"

/-- The grant to a user. -/
def pgGrant (username : String) (role : RoleTemplate) : String :=
  let user := escapePgIdent username
  let database := escapePgIdent role.database
  match role.permissions with
  | .readOnly =>
    s!"GRANT CONNECT ON DATABASE \"{database}\" TO \"{user}\"; " ++
      s!"GRANT SELECT ON ALL TABLES IN SCHEMA public TO \"{user}\""
  | .readWrite =>
    s!"GRANT CONNECT ON DATABASE \"{database}\" TO \"{user}\"; " ++
      s!"GRANT SELECT, INSERT, UPDATE, DELETE ON ALL TABLES IN SCHEMA public TO \"{user}\""
  | .admin => s!"GRANT ALL PRIVILEGES ON DATABASE \"{database}\" TO \"{user}\""

/-- The statements in the order in which they are executed. -/
def provisionPostgres (validUntil : Timestamp) (username password : String) (role : RoleTemplate) :
    List String :=
  let user := escapePgIdent username
  let secret := escapePgLiteral password
  let expiry := pgTimestamp validUntil
  [s!"CREATE ROLE \"{user}\" WITH LOGIN PASSWORD '{secret}'", pgGrant username role,
    s!"ALTER ROLE \"{user}\" CONNECTION LIMIT 10", s!"ALTER ROLE \"{user}\" VALID UNTIL '{expiry}'"]

/-- The statements that remove a user. -/
def revokePostgres (username : String) : List String :=
  let user := escapePgIdent username
  let literal := escapePgLiteral username
  [s!"SELECT pg_terminate_backend(pid) FROM pg_stat_activity WHERE usename = '{literal}'",
    s!"REVOKE ALL PRIVILEGES ON ALL TABLES IN SCHEMA public FROM \"{user}\"",
    s!"DROP ROLE IF EXISTS \"{user}\""]

/-! ### MySQL -/

def mysqlGrant (username : String) (role : RoleTemplate) : String :=
  let user := escapeMysqlIdent username
  let database := escapeMysqlIdent role.database
  match role.permissions with
  | .readOnly => s!"GRANT SELECT ON `{database}`.* TO '{user}'@'%'"
  | .readWrite => s!"GRANT SELECT, INSERT, UPDATE, DELETE ON `{database}`.* TO '{user}'@'%'"
  | .admin => s!"GRANT ALL PRIVILEGES ON `{database}`.* TO '{user}'@'%'"

/-- The statements for a new user. -/
def provisionMysql (username password : String) (role : RoleTemplate) : List String :=
  let user := escapeMysqlIdent username
  let secret := escapeMysqlLiteral password
  [s!"CREATE USER '{user}'@'%' IDENTIFIED BY '{secret}'", mysqlGrant username role,
    s!"ALTER USER '{user}'@'%' WITH MAX_USER_CONNECTIONS 10",
    s!"ALTER USER '{user}'@'%' PASSWORD EXPIRE INTERVAL 1 DAY", "FLUSH PRIVILEGES"]

/-! ### The dialects -/

/-- The longest beginning of at most `n` bytes. -/
def clip : ℕ → List Char → List Char
  | _, [] => []
  | n, c :: text => if c.utf8Size ≤ n then c :: clip (n - c.utf8Size) text else []

/-- A quoted identifier must not be empty and is cut off after 63 bytes. -/
def postgresAccept : Token → Option Token
  | .quoted q content =>
    if q = doubleQuote then
      if content = [] then none else some (.quoted q (clip 63 content))
    else some (.quoted q content)
  | t => some t

/-- PostgreSQL with `standard_conforming_strings` on. -/
def postgres : Dialect where
  quotes := [singleQuote, doubleQuote]
  escapes := []
  unescape c := [c]
  accept := postgresAccept

def mysqlUnescape (c : Char) : List Char :=
  if c = '0' then [Char.ofNat 0]
  else if c = 'b' then [Char.ofNat 8]
  else if c = 'n' then [Char.ofNat 10]
  else if c = 'r' then [Char.ofNat 13]
  else if c = 't' then [Char.ofNat 9]
  else if c = 'Z' then [Char.ofNat 26]
  -- the wildcards keep their backslash
  else if c = '%' ∨ c = '_' then [backslash, c]
  else [c]

/-- MySQL with its default `sql_mode`. -/
def mysql : Dialect where
  quotes := [singleQuote, doubleQuote, backtick]
  escapes := [singleQuote, doubleQuote]
  unescape := mysqlUnescape
  accept := some

/-! ### The tokens that are meant -/

def words (l : List String) : List Token := l.map fun w => .word w.toList

def ident (s : String) : Token := .quoted doubleQuote s.toList

def literal (s : String) : Token := .quoted singleQuote s.toList

def writes : List Token :=
  words ["SELECT"] ++ .symbol ',' :: words ["INSERT"] ++ .symbol ',' :: words ["UPDATE"] ++
    .symbol ',' :: words ["DELETE"]

def pgGrantTokens (username : String) (role : RoleTemplate) : List Token :=
  let connect := words ["GRANT", "CONNECT", "ON", "DATABASE"] ++
    (ident role.database :: words ["TO"])
  let tables := words ["ON", "ALL", "TABLES", "IN", "SCHEMA", "public", "TO"]
  match role.permissions with
  | .readOnly =>
    connect ++ (ident username :: .symbol ';' :: words ["GRANT", "SELECT"] ++ tables) ++
      [ident username]
  | .readWrite =>
    connect ++ (ident username :: .symbol ';' :: words ["GRANT"] ++ writes ++ tables) ++
      [ident username]
  | .admin =>
    words ["GRANT", "ALL", "PRIVILEGES", "ON", "DATABASE"] ++
      (ident role.database :: words ["TO"]) ++
      [ident username]

def provisionPostgresTokens (validUntil : Timestamp) (username password : String)
    (role : RoleTemplate) : List (List Token) :=
  [words ["CREATE", "ROLE"] ++ (ident username :: words ["WITH", "LOGIN", "PASSWORD"]) ++
      [literal password],
    pgGrantTokens username role,
    words ["ALTER", "ROLE"] ++ ident username :: words ["CONNECTION", "LIMIT", "10"],
    words ["ALTER", "ROLE"] ++ (ident username :: words ["VALID", "UNTIL"]) ++
      [literal (pgTimestamp validUntil)]]

def revokePostgresTokens (username : String) : List (List Token) :=
  [(words ["SELECT", "pg_terminate_backend"] ++ .symbol '(' :: words ["pid"] ++
      .symbol ')' :: words ["FROM", "pg_stat_activity", "WHERE", "usename"] ++ [.symbol '=']) ++
      [literal username],
    words ["REVOKE", "ALL", "PRIVILEGES", "ON", "ALL", "TABLES", "IN",
      "SCHEMA", "public", "FROM"] ++
      [ident username],
    words ["DROP", "ROLE", "IF", "EXISTS"] ++ [ident username]]

/-- `'user'@'%'`. -/
def account (username : String) : List Token := [literal username, .symbol '@', literal "%"]

def mysqlGrantTokens (username : String) (role : RoleTemplate) : List Token :=
  let granted := match role.permissions with
    | .readOnly => words ["SELECT"]
    | .readWrite => writes
    | .admin => words ["ALL", "PRIVILEGES"]
  (words ["GRANT"] ++ granted ++ words ["ON"]) ++
    (.quoted backtick role.database.toList :: .symbol '.' :: .symbol '*' :: words ["TO"]) ++
    account username

def provisionMysqlTokens (username password : String) (role : RoleTemplate) : List (List Token) :=
  [words ["CREATE", "USER"] ++ (account username ++ words ["IDENTIFIED", "BY"]) ++
    [literal password],
    mysqlGrantTokens username role,
    words ["ALTER", "USER"] ++ (account username ++ words ["WITH", "MAX_USER_CONNECTIONS", "10"]),
    words ["ALTER", "USER"] ++
      (account username ++ words ["PASSWORD", "EXPIRE", "INTERVAL", "1", "DAY"]),
    words ["FLUSH", "PRIVILEGES"]]

/-! ### What PostgreSQL reads -/

theorem run_escapePgIdent (s : String) :
    postgres.run (.quoted doubleQuote []) (escapePgIdent s).toList =
      ([], .quoted doubleQuote s.toList) := by
  rw [escapePgIdent, replaceChar, String.toList_ofList]
  exact postgres.run_doubled List.not_mem_nil [] s.toList

theorem run_escapePgLiteral (s : String) :
    postgres.run (.quoted singleQuote []) (escapePgLiteral s).toList =
      ([], .quoted singleQuote s.toList) := by
  rw [escapePgLiteral, replaceChar, String.toList_ofList]
  exact postgres.run_doubled List.not_mem_nil [] s.toList

/-- A timestamp has no quote in it, so it is written as it is. -/
theorem escapePgLiteral_pgTimestamp (t : Timestamp) :
    escapePgLiteral (pgTimestamp t) = pgTimestamp t := by
  have hdigits : ∀ width n, singleQuote ∉ (Text.padded width n).toList := fun width n h => by
    have := Text.isDigit_of_mem_padded h
    revert this
    decide
  have hnot : singleQuote ∉ (pgTimestamp t).toList := by
    simp only [pgTimestamp, String.toList_append, List.mem_append, hdigits, false_or, or_false]
    decide
  rw [escapePgLiteral, replaceChar, ← String.toList_inj, String.toList_ofList]
  have hkeep : ∀ x ∈ (pgTimestamp t).toList,
      (if x = singleQuote then "''".toList else [x]) = [x] := fun x hx =>
    if_neg fun h : x = singleQuote => hnot (h ▸ hx)
  rw [List.flatMap_congr hkeep, List.flatMap_singleton']

set_option maxRecDepth 2000 in
theorem scan_pgGrant (username : String) (role : RoleTemplate) :
    postgres.scan .plain (pgGrant username role).toList = some (pgGrantTokens username role) := by
  have huser := run_escapePgIdent username
  have hdatabase := run_escapePgIdent role.database
  unfold pgGrant pgGrantTokens
  cases role.permissions with
  | readOnly =>
    simp only [String.toList_append, toString, ← List.append_assoc]
    exact (postgres.scan_fixed (postgres.run_quoted (postgres.run_fixed (postgres.run_quoted
      (postgres.run_open rfl hdatabase) rfl huser) rfl) rfl huser) rfl).trans rfl
  | readWrite =>
    simp only [String.toList_append, toString, ← List.append_assoc]
    exact (postgres.scan_fixed (postgres.run_quoted (postgres.run_fixed (postgres.run_quoted
      (postgres.run_open rfl hdatabase) rfl huser) rfl) rfl huser) rfl).trans rfl
  | admin =>
    simp only [String.toList_append, toString]
    exact postgres.scan_fixed (postgres.run_quoted (postgres.run_open rfl hdatabase) rfl huser) rfl

set_option maxRecDepth 2000 in
/-- Every statement of the driver scans into the tokens that are meant. -/
theorem scan_postgres (validUntil : Timestamp) (username password : String) (role : RoleTemplate) :
    List.Forall₂ (fun text ts => postgres.scan .plain text.toList = some ts)
      (provisionPostgres validUntil username password role ++ revokePostgres username)
      (provisionPostgresTokens validUntil username password role ++
        revokePostgresTokens username) := by
  have huser := run_escapePgIdent username
  have hexpiry := run_escapePgLiteral (pgTimestamp validUntil)
  rw [escapePgLiteral_pgTimestamp] at hexpiry
  refine .cons ?_ (.cons (scan_pgGrant username role) (.cons ?_ (.cons ?_ (.cons ?_ (.cons ?_
    (.cons ?_ .nil)))))) <;> simp only [String.toList_append, toString]
  · exact postgres.scan_fixed (postgres.run_quoted (postgres.run_open rfl huser) rfl
      (run_escapePgLiteral password)) rfl
  · exact postgres.scan_fixed (postgres.run_open rfl huser) rfl
  · exact postgres.scan_fixed (postgres.run_quoted (postgres.run_open rfl huser) rfl hexpiry) rfl
  · exact postgres.scan_fixed (postgres.run_open rfl (run_escapePgLiteral username)) rfl
  · exact postgres.scan_fixed (postgres.run_open rfl huser) rfl
  · exact postgres.scan_fixed (postgres.run_open rfl huser) rfl

/-! ### Names that PostgreSQL keeps -/

theorem clip_eq_self : ∀ {n : ℕ} {text : List Char}, clip n text = text ↔ String.utf8Len text ≤ n
  | n, [] => by simp [clip]
  | n, c :: text => by
    have ih := @clip_eq_self (n - c.utf8Size) text
    rw [clip, String.utf8Len_cons]
    split_ifs with hc
    · rw [List.cons_inj_right, ih]
      omega
    · simp only [false_iff]
      omega

theorem postgresAccept_ident {s : String} :
    postgresAccept (ident s) = some (ident s) ↔ s ≠ "" ∧ s.utf8ByteSize ≤ 63 := by
  have hempty : s.toList = [] ↔ s = "" := String.toList_eq_nil_iff
  have hsize : s.utf8ByteSize = String.utf8Len s.toList := by
    rw [← String.utf8ByteSize_ofList, String.ofList_toList]
  rw [hsize, ← clip_eq_self, ident, postgresAccept, if_pos rfl, Ne, ← hempty]
  split_ifs with h
  · simp [h]
  · simp [h]

theorem accept_words (l : List String) :
    (∀ t ∈ words l, postgres.accept t = some t) ↔ True := by
  refine iff_true_intro fun t ht => ?_
  obtain ⟨w, _, rfl⟩ := List.mem_map.mp ht
  rfl

theorem accept_symbol (c : Char) : postgres.accept (.symbol c) = some (.symbol c) := rfl

theorem accept_literal (s : String) : postgres.accept (literal s) = some (literal s) := rfl

/-- Only the identifiers are at the mercy of the scanner. -/
theorem accept_postgresTokens_iff (validUntil : Timestamp) (username password : String)
    (role : RoleTemplate) :
    (∀ ts ∈ provisionPostgresTokens validUntil username password role ++
        revokePostgresTokens username, ∀ t ∈ ts, postgres.accept t = some t) ↔
      postgres.accept (ident username) = some (ident username) ∧
        postgres.accept (ident role.database) = some (ident role.database) := by
  have hgrant : (∀ t ∈ pgGrantTokens username role, postgres.accept t = some t) ↔
      postgres.accept (ident username) = some (ident username) ∧
        postgres.accept (ident role.database) = some (ident role.database) := by
    rcases role with ⟨database, _ | _ | _⟩ <;>
      simp only [pgGrantTokens, writes, List.forall_mem_append, List.forall_mem_cons, accept_words,
        accept_symbol, List.not_mem_nil, IsEmpty.forall_iff, implies_true, true_and, and_true] <;>
      tauto
  simp only [provisionPostgresTokens, revokePostgresTokens, List.forall_mem_append,
    List.forall_mem_cons, hgrant, accept_words, accept_symbol, accept_literal, List.not_mem_nil,
    IsEmpty.forall_iff, implies_true, true_and, and_true]
  tauto

/-- EXACT: PostgreSQL reads every statement as it is meant, whatever characters the names and the
    password have, if the user name has at most 63 bytes and the database name 1 to 63. -/
theorem postgres_tokens_iff (serviceName roleName hex database password : String)
    (validUntil : Timestamp) :
    (provisionPostgres validUntil (credentialsUsername serviceName roleName hex) password
          (parseRole roleName database) ++
        revokePostgres (credentialsUsername serviceName roleName hex)).map postgres.lex =
      (provisionPostgresTokens validUntil (credentialsUsername serviceName roleName hex) password
          (parseRole roleName database) ++
        revokePostgresTokens (credentialsUsername serviceName roleName hex)).map some ↔
    (credentialsUsername serviceName roleName hex).utf8ByteSize ≤ 63 ∧
      database ≠ "" ∧ database.utf8ByteSize ≤ 63 := by
  have hne : credentialsUsername serviceName roleName hex ≠ "" := fun h => by
    have := congrArg String.toList h
    simp [credentialsUsername, toString] at this
  rw [postgres.map_lex_iff (scan_postgres _ _ _ _), accept_postgresTokens_iff]
  exact and_congr (postgresAccept_ident.trans (and_iff_right hne)) postgresAccept_ident

/-- The random part of a long user name is cut off, so two of them are the same role. -/
theorem long_username_cut :
    let username := credentialsUsername (String.ofList (List.replicate 60 'a')) "ro"
    let statements hex := (provisionPostgres ⟨2026, 1, 1, 0, 0, 0⟩ (username hex) "p"
      (parseRole "ro" "db")).map postgres.lex
    (statements "00000001").head? = (statements "00000002").head? ∧
      statements "00000001" ≠ (provisionPostgresTokens ⟨2026, 1, 1, 0, 0, 0⟩
        (username "00000001") "p"
        (parseRole "ro" "db")).map some := by
  intro username statements
  have hcreate : ∀ hex, (statements hex).head? = some ((words ["CREATE", "ROLE"] ++
      (ident (username hex) :: words ["WITH", "LOGIN", "PASSWORD"]) ++ [literal "p"]).mapM
        postgres.accept) := fun hex => by
    have hscan := (List.forall₂_cons.mp
      (scan_postgres ⟨2026, 1, 1, 0, 0, 0⟩ (username hex) "p" (parseRole "ro" "db"))).1
    exact congrArg some (congrArg (Option.bind · _) hscan)
  constructor
  · rw [hcreate, hcreate]
    decide +kernel
  · intro h
    have hhead := (hcreate "00000001").symm.trans (congrArg List.head? h)
    revert hhead
    decide +kernel

/-! ### What MySQL reads -/

def mysqlIdentChar (c : Char) : List Char :=
  if c = backtick then [backtick, backtick] else if c = singleQuote then [backslash, singleQuote]
  else [c]

theorem toList_escapeMysqlIdent (s : String) :
    (escapeMysqlIdent s).toList = s.toList.flatMap mysqlIdentChar := by
  simp only [escapeMysqlIdent, replaceChar, String.toList_ofList, List.flatMap_assoc]
  refine List.flatMap_congr fun c _ => ?_
  unfold mysqlIdentChar
  by_cases hb : c = backtick
  · subst hb
    rfl
  · rw [if_neg hb, if_neg hb, List.flatMap_singleton]
    rfl

/-- A password is read back. -/
theorem run_escapeMysqlLiteral (s : String) :
    mysql.run (.quoted singleQuote []) (escapeMysqlLiteral s).toList =
      ([], .quoted singleQuote s.toList) := by
  simp only [escapeMysqlLiteral, replaceChar, String.toList_ofList, List.flatMap_assoc]
  rw [mysql.run_flatMap (fun c => [c]), List.flatMap_singleton']
  · rfl
  · intro c content
    by_cases hb : c = backslash
    · subst hb
      rfl
    · by_cases hq : c = singleQuote
      · subst hq
        rfl
      · have hb' : c ≠ '\\' := hb
        simp [hb, hq, hb', Dialect.run, Dialect.step]

/-- What stands between back quotes: a single quote has gained a backslash. -/
def storedDatabase (s : String) : String :=
  String.ofList (s.toList.flatMap fun c => if c = singleQuote then [backslash, c] else [c])

theorem run_database (s : String) :
    mysql.run (.quoted backtick []) (escapeMysqlIdent s).toList =
      ([], .quoted backtick (storedDatabase s).toList) := by
  rw [toList_escapeMysqlIdent, storedDatabase, String.toList_ofList,
    mysql.run_flatMap fun c => if c = singleQuote then [backslash, c] else [c]]
  · rfl
  · intro c content
    by_cases hb : c = backtick
    · subst hb
      rfl
    · by_cases hq : c = singleQuote
      · subst hq
        calc mysql.run (.quoted backtick content) [backslash, singleQuote]
            = ([], .quoted backtick (content ++ [backslash] ++ [singleQuote])) := rfl
          _ = _ := by rw [List.append_assoc]; rfl
      · have hescapes : ¬ (c = '\\' ∧ backtick ∈ mysql.escapes) := fun h => absurd h.2 (by decide)
        simp only [mysqlIdentChar, if_neg hb, if_neg hq, Dialect.run, Dialect.step,
          if_neg hescapes, List.append_nil]

theorem storedDatabase_eq_self {s : String} : storedDatabase s = s ↔ singleQuote ∉ s.toList := by
  have hlength : ∀ l : List Char, (l.flatMap fun c => if c = singleQuote then [backslash, c]
      else [c]).length = l.length + l.count singleQuote := by
    intro l
    induction l with
    | nil => rfl
    | cons c l ih =>
      rw [List.flatMap_cons, List.length_append, ih, List.count_cons, List.length_cons]
      by_cases hc : c = singleQuote <;> simp [hc] <;> omega
  constructor
  · intro h hmem
    have hlen := congrArg (fun s : String => s.toList.length) h
    simp only [storedDatabase, String.toList_ofList, hlength] at hlen
    have := List.count_pos_iff.mpr hmem
    omega
  · intro h
    have hkeep : ∀ c ∈ s.toList, (if c = singleQuote then [backslash, c] else [c]) = [c] :=
      fun c hc => if_neg fun heq : c = singleQuote => h (heq ▸ hc)
    rw [storedDatabase, List.flatMap_congr hkeep, List.flatMap_singleton', String.ofList_toList]

/-! ### User names that MySQL keeps -/

/-- No back quote, and a backslash only before a wildcard. -/
def MysqlPlain : List Char → Prop
  | [] => True
  | [c] => c ≠ backtick ∧ c ≠ backslash
  | c :: c' :: rest =>
    if c = backslash then (c' = '%' ∨ c' = '_') ∧ MysqlPlain rest
    else c ≠ backtick ∧ MysqlPlain (c' :: rest)

variable {c : Char} {content text : List Char}

theorem mysqlPlain_cons (hc : c ≠ backslash) {rest : List Char} :
    MysqlPlain (c :: rest) ↔ c ≠ backtick ∧ MysqlPlain rest := by
  cases rest with
  | nil => simp [MysqlPlain, hc]
  | cons c' rest => rw [MysqlPlain, if_neg hc]

theorem run_char (hq : c ≠ singleQuote) (hb : c ≠ backslash) (content : List Char) :
    mysql.run (.quoted singleQuote content) [c] = ([], .quoted singleQuote (content ++ [c])) := by
  have hescape : ¬ (c = '\\' ∧ singleQuote ∈ mysql.escapes) := fun h => hb h.1
  simp only [Dialect.run, Dialect.step, if_neg hq, if_neg hescape, List.append_nil]

theorem run_backslash (c : Char) (content : List Char) :
    mysql.run (.quoted singleQuote content) [backslash, c] =
      ([], .quoted singleQuote (content ++ mysqlUnescape c)) := rfl

theorem run_backticks (content : List Char) :
    mysql.run (.quoted singleQuote content) [backtick, backtick] =
      ([], .quoted singleQuote (content ++ [backtick] ++ [backtick])) := rfl

theorem mysqlUnescape_wildcard (h : c = '%' ∨ c = '_') :
    mysqlUnescape c = [backslash, c] := by
  rcases h with rfl | rfl <;> rfl

/-- A character that is neither a back quote nor a backslash is read as itself. -/
theorem run_identChar (hback : c ≠ backtick) (hb : c ≠ backslash) (content : List Char) :
    mysql.run (.quoted singleQuote content) (mysqlIdentChar c) =
      ([], .quoted singleQuote (content ++ [c])) := by
  by_cases hq : c = singleQuote
  · subst hq
    exact run_backslash singleQuote content
  · rw [mysqlIdentChar, if_neg hback, if_neg hq, run_char hq hb]

/-- RUN: such a name is read as it is. -/
theorem run_username : ∀ {name : List Char}, MysqlPlain name → ∀ content : List Char,
    mysql.run (.quoted singleQuote content) (name.flatMap mysqlIdentChar) =
      ([], .quoted singleQuote (content ++ name))
  | [], _, content => by rw [List.append_nil]; rfl
  | [c], h, content => by rw [List.flatMap_singleton, run_identChar h.1 h.2]
  | c :: c' :: rest, h, content => by
    by_cases hb : c = backslash
    · subst hb
      obtain ⟨hwild, hrest⟩ := h
      have hpair : (backslash :: c' :: rest).flatMap mysqlIdentChar =
          [backslash, c'] ++ rest.flatMap mysqlIdentChar := by
        rcases hwild with rfl | rfl <;> rfl
      rw [hpair, mysql.run_append, run_backslash, run_username hrest, mysqlUnescape_wildcard hwild,
        List.append_assoc]
      rfl
    · obtain ⟨hback, hrest⟩ := (mysqlPlain_cons hb).mp h
      rw [List.flatMap_cons, mysql.run_append, run_identChar hback hb, run_username hrest,
        List.append_assoc]
      rfl

/-- Reading on from inside the quotes gives a token with this content. -/
def Reads (content text c : List Char) : Prop :=
  ∃ ts, mysql.scan (.quoted singleQuote content) text = some (.quoted singleQuote c :: ts)

theorem Reads.run (fixed : List Char) {content' c : List Char} (h : Reads content (fixed ++ text) c)
    (hrun : mysql.run (.quoted singleQuote content) fixed = ([], .quoted singleQuote content')) :
    Reads content' text c := by
  obtain ⟨ts, h⟩ := h
  rw [Dialect.scan_append, hrun] at h
  obtain ⟨ts', hscan, hts⟩ := Option.map_eq_some_iff.mp h
  exact ⟨ts, by rw [hscan, ← hts]; rfl⟩

theorem Reads.isPrefix {c : List Char} (h : Reads content text c) : content <+: c := by
  obtain ⟨ts, h⟩ := h
  obtain ⟨more, ts', hts⟩ := mysql.scan_head (.inl rfl) h
  obtain ⟨hc, _⟩ := List.cons.inj hts
  exact ⟨more, (Token.quoted.inj hc).2.symm⟩

/-- The next character that is read is the next one of the content. -/
theorem Reads.head {l more : List Char} {x y : Char}
    (h : Reads (content ++ x :: more) text (content ++ y :: l)) : x = y := by
  have hpre := (List.prefix_append_right_inj content).mp h.isPrefix
  exact (List.cons_prefix_cons.mp hpre).1

theorem Reads.close {c : List Char} {x : Char} (hx : x ≠ singleQuote)
    (h : Reads content (singleQuote :: x :: text) c) : c = content := by
  obtain ⟨ts, h⟩ := h
  have hrun : mysql.run (.quoted singleQuote content) [singleQuote, x] =
      (.quoted singleQuote content :: (mysql.plainStep x).1, (mysql.plainStep x).2) := by
    simp only [Dialect.run, Dialect.step, if_true, if_neg hx, List.nil_append, List.append_nil]
  have hscan := mysql.scan_append (.quoted singleQuote content) [singleQuote, x] text
  rw [hrun] at hscan
  obtain ⟨ts', _, hts⟩ := Option.map_eq_some_iff.mp (hscan.symm.trans h)
  exact (Token.quoted.inj (List.cons.inj hts).1).2.symm

/-- A back quote is doubled, and the content stays ahead of the name from there on. -/
theorem not_reads_ahead (text : List Char) : ∀ (name content : List Char) (k : ℕ),
    ¬ Reads (content ++ List.replicate (k + 1) backtick) (name.flatMap mysqlIdentChar ++ text)
      (content ++ name)
  | [], content, k, h => by
    have hlen := h.isPrefix.length_le
    simp only [List.length_append, List.length_replicate, List.length_nil] at hlen
    omega
  | c :: name, content, k, h => by
    rw [List.replicate_succ] at h
    obtain rfl := h.head
    have hnext : Reads (content ++ backtick :: List.replicate k backtick ++
      [backtick] ++ [backtick])
        (name.flatMap mysqlIdentChar ++ text) (content ++ backtick :: name) :=
      Reads.run [backtick, backtick] h (run_backticks _)
    refine not_reads_ahead text name (content ++ [backtick]) (k + 1) ?_
    rw [List.append_assoc content [backtick] name, List.replicate_succ', List.replicate_succ']
    simpa only [List.append_assoc, List.cons_append, List.nil_append] using hnext

theorem replicate_append_cons (k : ℕ) (c : Char) (l : List Char) :
    List.replicate k c ++ c :: l = c :: (List.replicate k c ++ l) := by
  rw [← List.cons_append, ← List.replicate_succ, List.replicate_succ', List.append_assoc]
  rfl

/-- A character other than a backslash is read as itself; a back quote is followed by another. -/
theorem reads_char (hb : c ≠ backslash) {name : List Char} {k : ℕ}
    (h : Reads content ((c :: name).flatMap mysqlIdentChar ++ text)
      (content ++ (List.replicate k backslash ++ c :: name))) :
    k = 0 ∧ c ≠ backtick ∧
      Reads (content ++ [c]) (name.flatMap mysqlIdentChar ++ text) (content ++ [c] ++ name) := by
  rw [List.flatMap_cons, List.append_assoc] at h
  obtain ⟨more, hrun, hmore⟩ : ∃ more, mysql.run (.quoted singleQuote content) (mysqlIdentChar c) =
      ([], .quoted singleQuote (content ++ c :: more)) ∧
      more = if c = backtick then [backtick] else [] := by
    by_cases hback : c = backtick
    · subst hback
      exact ⟨[backtick], (run_backticks content).trans (by rw [List.append_assoc]; rfl), rfl⟩
    · exact ⟨[], run_identChar hback hb content, (if_neg hback).symm⟩
  have hnext := Reads.run _ h hrun
  obtain rfl : k = 0 := by
    rcases k with _ | k
    · rfl
    · rw [List.replicate_succ, List.cons_append] at hnext
      exact absurd hnext.head hb
  rw [List.replicate_zero, List.nil_append] at hnext
  have hplain : c ≠ backtick := by
    rintro rfl
    rw [if_pos rfl] at hmore
    subst hmore
    refine not_reads_ahead text name (content ++ [backtick]) 0 ?_
    rw [List.append_assoc, List.append_assoc]
    exact hnext
  rw [if_neg hplain] at hmore
  subst hmore
  rw [List.append_assoc]
  exact ⟨rfl, hplain, hnext⟩

theorem mysqlUnescape_other (hb : c ≠ backslash) (hwild : ¬ (c = '%' ∨ c = '_')) :
    ∃ z, mysqlUnescape c = [z] ∧ z ≠ backslash := by
  unfold mysqlUnescape
  split_ifs
  all_goals first
    | exact ⟨_, rfl, by decide⟩
    | exact ⟨c, rfl, hb⟩

/-- A backslash and a quote: the backslash is escaped and the quote ends the token. -/
theorem not_reads_quote (content name text : List Char) (k : ℕ) :
    ¬ Reads (content ++ [backslash])
      (singleQuote :: (name.flatMap mysqlIdentChar ++ singleQuote :: '@' :: text))
      (content ++ backslash :: (List.replicate k backslash ++ singleQuote :: name)) := by
  intro h
  cases name with
  | nil =>
    -- two quotes in a row, so the token goes on behind the name
    have hquotes : Reads (content ++ [backslash] ++ [singleQuote]) ('@' :: text) _ :=
      Reads.run [singleQuote, singleQuote] h rfl
    have hat := Reads.run ['@'] hquotes (run_char (by decide) (by decide) _)
    rcases k with _ | k
    · have hlen := hat.isPrefix.length_le
      simp at hlen
    · have hsecond : Reads (content ++ [backslash] ++ singleQuote :: []) ('@' :: text)
          (content ++ [backslash] ++ backslash ::
            (List.replicate k backslash ++ [singleQuote])) := by
        simpa [List.replicate_succ] using hquotes
      exact absurd hsecond.head (by decide)
  | cons c name =>
    obtain ⟨x, more, hx, hne⟩ : ∃ x more, mysqlIdentChar c = x :: more ∧ x ≠ singleQuote := by
      unfold mysqlIdentChar
      split_ifs with hback hq
      · exact ⟨backtick, _, rfl, by decide⟩
      · exact ⟨backslash, _, rfl, by decide⟩
      · exact ⟨c, _, rfl, hq⟩
    rw [List.flatMap_cons, hx] at h
    have hlen := congrArg List.length (h.close hne)
    simp only [List.length_append, List.length_cons, List.length_nil] at hlen
    omega

/-- A backslash and a wildcard are read as they are, two backslashes as one, and all else does not
    lead to the name. -/
theorem reads_backslash {name : List Char} {k : ℕ}
    (h : Reads content ((backslash :: c :: name).flatMap mysqlIdentChar ++
        singleQuote :: '@' :: text)
      (content ++ (List.replicate k backslash ++ backslash :: c :: name))) :
    (k = 0 ∧ (c = '%' ∨ c = '_') ∧ Reads (content ++ [backslash, c])
        (name.flatMap mysqlIdentChar ++ singleQuote :: '@' :: text)
        (content ++ [backslash, c] ++ name)) ∨
      (c = backslash ∧ Reads (content ++ [backslash])
        (name.flatMap mysqlIdentChar ++ singleQuote :: '@' :: text)
        (content ++ [backslash] ++ (List.replicate (k + 1) backslash ++ name))) := by
  rw [replicate_append_cons] at h
  by_cases hback : c = backtick
  · subst hback
    exact absurd (Reads.run [backslash, backtick] h (run_backslash _ _)).head (by decide)
  by_cases hq : c = singleQuote
  · subst hq
    have hnext : Reads (content ++ [backslash]) (singleQuote :: (name.flatMap mysqlIdentChar ++
        singleQuote :: '@' :: text)) _ :=
      Reads.run [backslash, backslash] h (run_backslash _ _)
    exact absurd hnext (not_reads_quote content name text k)
  have hone : mysqlIdentChar c = [c] := by rw [mysqlIdentChar, if_neg hback, if_neg hq]
  have hnext : Reads (content ++ mysqlUnescape c) (name.flatMap mysqlIdentChar ++
      singleQuote :: '@' :: text)
        (content ++ backslash :: (List.replicate k backslash ++ c :: name)) := by
    refine Reads.run [backslash, c] ?_ (run_backslash c content)
    rw [List.flatMap_cons, List.flatMap_cons, hone] at h
    exact h
  by_cases hb : c = backslash
  · subst hb
    right
    have hread : mysqlUnescape backslash = [backslash] := rfl
    rw [hread, replicate_append_cons] at hnext
    rw [List.append_assoc]
    exact ⟨rfl, hnext⟩
  by_cases hwild : c = '%' ∨ c = '_'
  · left
    rw [mysqlUnescape_wildcard hwild] at hnext
    obtain rfl : k = 0 := by
      rcases k with _ | k
      · rfl
      · have hsecond : Reads (content ++ [backslash] ++ c :: []) (name.flatMap mysqlIdentChar ++
            singleQuote :: '@' :: text) (content ++ [backslash] ++
              backslash :: (List.replicate k backslash ++ c :: name)) := by
          simpa [List.replicate_succ] using hnext
        exact absurd hsecond.head hb
    rw [List.append_assoc]
    exact ⟨rfl, hwild, hnext⟩
  · obtain ⟨z, hz, hne⟩ := mysqlUnescape_other hb hwild
    rw [hz] at hnext
    exact absurd hnext.head hne

/-- EXACT: a name that is read back is plain. Each escaped backslash leaves the content one
    backslash behind the name, and it never catches up. -/
theorem plain_of_reads (text : List Char) : ∀ (name content : List Char) (k : ℕ),
    Reads content (name.flatMap mysqlIdentChar ++ singleQuote :: '@' :: text)
      (content ++ (List.replicate k backslash ++ name)) → k = 0 ∧ MysqlPlain name
  | [], content, k, h => by
    have hlen := congrArg List.length (h.close (by decide))
    simp only [List.length_append, List.length_replicate, List.length_nil] at hlen
    exact ⟨by omega, trivial⟩
  | [c], content, k, h => by
    by_cases hb : c = backslash
    · subst hb
      -- the closing quote is escaped
      rw [replicate_append_cons] at h
      exact absurd (Reads.run [backslash, singleQuote] h (run_backslash _ _)).head
        (by decide)
    · obtain ⟨hk, hback, _⟩ := reads_char hb h
      exact ⟨hk, hback, hb⟩
  | c :: c' :: name, content, k, h => by
    by_cases hb : c = backslash
    · subst hb
      rcases reads_backslash h with ⟨hk, hwild, hnext⟩ | ⟨_, hnext⟩
      · exact ⟨hk, hwild, (plain_of_reads text name _ 0 hnext).2⟩
      · exact absurd (plain_of_reads text name _ (k + 1) hnext).1 (Nat.succ_ne_zero k)
    · obtain ⟨hk, hback, hnext⟩ := reads_char hb h
      exact ⟨hk, (mysqlPlain_cons hb).mpr
        ⟨hback, (plain_of_reads text (c' :: name) _ 0 hnext).2⟩⟩

/-! ### What MySQL makes of the statements -/

section
variable {username : String}
  (huser : mysql.run (.quoted singleQuote []) (escapeMysqlIdent username).toList =
    ([], .quoted singleQuote username.toList))
include huser

theorem scan_mysqlGrant (role : RoleTemplate) :
    mysql.scan .plain (mysqlGrant username role).toList =
      some (mysqlGrantTokens username ⟨storedDatabase role.database, role.permissions⟩) := by
  have hdatabase := run_database role.database
  unfold mysqlGrant mysqlGrantTokens
  cases role.permissions <;> simp only [String.toList_append, toString] <;>
    exact mysql.scan_fixed (mysql.run_quoted (mysql.run_open rfl hdatabase) rfl huser) rfl

/-- The statements for a user name that is read back. -/
theorem scan_mysql (password : String) (role : RoleTemplate) :
    List.Forall₂ (fun text ts => mysql.scan .plain text.toList = some ts)
      (provisionMysql username password role)
      (provisionMysqlTokens username password
        ⟨storedDatabase role.database, role.permissions⟩) := by
  refine .cons ?_ (.cons (scan_mysqlGrant huser role) (.cons ?_ (.cons ?_ (.cons rfl .nil)))) <;>
    simp only [String.toList_append, toString]
  · exact mysql.scan_fixed (mysql.run_quoted (mysql.run_open rfl huser) rfl
      (run_escapeMysqlLiteral password)) rfl
  · exact mysql.scan_fixed (mysql.run_open rfl huser) rfl
  · exact mysql.scan_fixed (mysql.run_open rfl huser) rfl

end

theorem lex_mysql (text : String) : mysql.lex text = mysql.scan .plain text.toList := by
  rw [Dialect.lex]
  cases mysql.scan .plain text.toList with
  | none => rfl
  | some ts => exact mysql.mapM_accept.mpr fun _ _ => rfl

/-- The first statement already shows whether the user name is read back. -/
theorem plain_of_create {username password : String} {ts : List Token}
    (h : mysql.scan .plain ("CREATE USER '" ++ escapeMysqlIdent username ++
      "'@'%' IDENTIFIED BY '" ++ escapeMysqlLiteral password ++ "'").toList =
        some (words ["CREATE", "USER"] ++ literal username :: ts)) :
    MysqlPlain username.toList := by
  simp only [String.toList_append, List.append_assoc] at h
  have hopen : mysql.run .plain "CREATE USER '".toList =
      (words ["CREATE", "USER"], .quoted singleQuote []) := rfl
  rw [Dialect.scan_append, hopen] at h
  obtain ⟨ts', hscan, hts⟩ := Option.map_eq_some_iff.mp h
  rw [List.append_cancel_left hts, toList_escapeMysqlIdent] at hscan
  exact (plain_of_reads _ username.toList [] 0 ⟨ts, hscan⟩).2

/-- EXACT: MySQL reads every statement as it is meant, whatever the password, if the user name has
    no back quote and a backslash only before a wildcard and the database name has no single quote.
    -/
theorem mysql_tokens_iff (serviceName roleName hex database password : String) :
    (provisionMysql (credentialsUsername serviceName roleName hex) password
        (parseRole roleName database)).map mysql.lex =
      (provisionMysqlTokens (credentialsUsername serviceName roleName hex) password
        (parseRole roleName database)).map some ↔
    MysqlPlain (credentialsUsername serviceName roleName hex).toList ∧
      singleQuote ∉ database.toList := by
  generalize credentialsUsername serviceName roleName hex = username
  rw [← storedDatabase_eq_self]
  constructor
  · intro h
    obtain ⟨hcreate, h⟩ := List.cons.inj h
    obtain ⟨hgrant, _⟩ := List.cons.inj h
    rw [lex_mysql] at hcreate hgrant
    have hplain : MysqlPlain username.toList := plain_of_create hcreate
    have huser := run_username hplain []
    rw [← toList_escapeMysqlIdent] at huser
    rw [scan_mysqlGrant huser] at hgrant
    have htoken := List.append_cancel_left (List.append_cancel_right (Option.some.inj hgrant))
    exact ⟨hplain, String.toList_inj.mp (Token.quoted.inj (List.cons.inj htoken).1).2⟩
  · rintro ⟨hplain, hdatabase⟩
    have huser := run_username hplain []
    rw [← toList_escapeMysqlIdent] at huser
    have hscan := scan_mysql huser password (parseRole roleName database)
    have hrole : (parseRole roleName database).database = database := rfl
    rw [hrole, hdatabase] at hscan
    exact (mysql.map_lex_iff hscan).mpr fun _ _ _ _ => rfl

/-- A backslash before a quote: the token for the user name ends at that quote. -/
theorem username_ends_early :
    let statements := provisionMysql (credentialsUsername "a\\'b" "ro" "00000001") "p"
      (parseRole "ro" "db")
    ((statements.map fun text => (mysql.run .plain text.toList).1.take 3).head? =
      some (words ["CREATE", "USER"] ++ [literal "v-a\\"])) ∧
    statements.map mysql.lex ≠
      (provisionMysqlTokens (credentialsUsername "a\\'b" "ro" "00000001") "p"
      (parseRole "ro" "db")).map some := by
  decide +kernel

end Ekafleet.Secrets
