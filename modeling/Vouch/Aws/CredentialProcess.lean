
/-!
# The command line of a credential process

Profiles that the command line tool sets up in `~/.aws/config` name it as their `credential_process`
(`aws/config.rs`).  The line is written by `render` and read back by `parse`, which splits it into
tokens at white space outside double quotes and then takes whatever follows a flag for its value.

* `finish_words` — the tokens of words with a space before each.
* `readFlags` — the loop over the tokens.  A value that looks like a flag is never taken for one, as
  it is consumed with the flag in front of it.
* `parse_rendered_line` — **what was written is read back.**  Of the path only two things matter:
  that it has no double quote and that, as absolute paths do, it does not begin like a flag.

Texts are lists of characters.
-/

namespace Vouch.Aws

/-! ## Tokens -/

/-- `char::is_ascii_whitespace`. -/
def isAsciiWhitespace (c : Char) : Bool :=
  c == ' ' || c == '\t' || c == '\n' || c == '\x0C' || c == '\r'

/-- The variables of `tokenize`. -/
structure Scan where
  tokens : List (List Char)
  current : List Char
  inQuotes : Bool

namespace Scan

/-- One character. -/
def step (s : Scan) (c : Char) : Scan :=
  if c = '"' then { s with inQuotes := !s.inQuotes }
  else if isAsciiWhitespace c && !s.inQuotes then
    if s.current = [] then s else { s with tokens := s.tokens ++ [s.current], current := [] }
  else { s with current := s.current ++ [c] }

/-- The end of the line. -/
def finish (s : Scan) : List (List Char) :=
  if s.current = [] then s.tokens else s.tokens ++ [s.current]

end Scan

/-- `tokenize`. -/
def tokenize (line : List Char) : List (List Char) := (line.foldl Scan.step ⟨[], [], false⟩).finish

/-- A value that needs no quotes. -/
def isWord (s : List Char) : Bool := !s.isEmpty && s.all fun c => c != '"' && !isAsciiWhitespace c

variable {tokens : List (List Char)} {current s : List Char}

/-- Characters that neither end a token nor change the quotes. -/
theorem foldl_step {inQuotes : Bool}
    (h : ∀ c ∈ s, c ≠ '"' ∧ (isAsciiWhitespace c && !inQuotes) = false) :
    s.foldl Scan.step ⟨tokens, current, inQuotes⟩ = ⟨tokens, current ++ s, inQuotes⟩ := by
  induction s generalizing current with
  | nil => simp
  | cons c s ih =>
    obtain ⟨⟨hquote, hspace⟩, hrest⟩ := List.forall_mem_cons.1 h
    rw [List.foldl_cons, Scan.step, if_neg hquote, hspace, if_neg Bool.false_ne_true, ih hrest]
    simp

/-- Words with a space before each. -/
def spaced (words : List (List Char)) : List Char := words.flatMap (' ' :: ·)

theorem finish_words {words : List (List Char)} (hwords : words.all isWord = true)
    (hcurrent : current ≠ []) :
    ((spaced words).foldl Scan.step ⟨tokens, current, false⟩).finish =
      tokens ++ current :: words := by
  induction words generalizing tokens current with
  | nil => simp [spaced, Scan.finish, hcurrent]
  | cons word words ih =>
    simp only [List.all_cons, isWord, Bool.and_eq_true, Bool.not_eq_true', List.all_eq_true,
      bne_iff_ne, List.isEmpty_eq_false_iff] at hwords
    obtain ⟨⟨hne, hword⟩, hrest⟩ := hwords
    have hspace : Scan.step ⟨tokens, current, false⟩ ' ' = ⟨tokens ++ [current], [], false⟩ := by
      simp [Scan.step, isAsciiWhitespace, hcurrent]
    have hscan : word.foldl Scan.step ⟨tokens ++ [current], [], false⟩ =
        ⟨tokens ++ [current], [] ++ word, false⟩ := by
      refine foldl_step fun c hc => ?_
      simp [hword c hc]
    rw [spaced, List.flatMap_cons, List.cons_append, List.foldl_cons, List.foldl_append,
      hspace, hscan, List.nil_append]
    exact (ih (by simpa [isWord] using hrest) hne).trans (List.append_assoc tokens [current] _)

/-- A quoted path, and words behind it. -/
theorem tokenize_command {path : List Char} {words : List (List Char)} (hpath : path ≠ [])
    (hquote : '"' ∉ path) (hwords : words.all isWord = true) :
    tokenize ('"' :: path ++ '"' :: spaced words) = path :: words := by
  have hscan : path.foldl Scan.step ⟨[], [], true⟩ = ⟨[], [] ++ path, true⟩ := by
    refine foldl_step fun c hc => ⟨?_, by simp⟩
    rintro rfl
    exact hquote hc
  have hopen : Scan.step ⟨[], [], false⟩ '"' = ⟨[], [], true⟩ := rfl
  have hclose : Scan.step ⟨[], path, true⟩ '"' = ⟨[], path, false⟩ := rfl
  rw [tokenize, List.cons_append, List.foldl_cons, List.foldl_append, List.foldl_cons, hopen, hscan,
    List.nil_append, hclose, finish_words hwords hpath, List.nil_append]

/-! ## Lines -/

/-- `CredentialProcessLine`. -/
inductive CredentialProcessLine where
  | role (roleArn : List Char) (via : Option (List Char))
  | identityCenter (applicationArn : Option (List Char)) (account permissionSet : List Char)
deriving DecidableEq

/-- The variables of the loop of `parse`. -/
structure Flags where
  roleArn : Option (List Char) := none
  via : Option (List Char) := none
  applicationArn : Option (List Char) := none
  account : Option (List Char) := none
  permissionSet : Option (List Char) := none

/-- Assign the value behind a flag; `none` for a token that is no flag. -/
def Flags.set (f : Flags) (token : List Char) (value : Option (List Char)) : Option Flags :=
  if token = "--role".toList then some { f with roleArn := value }
  else if token = "--via".toList then some { f with via := value }
  else if token = "--idc-application".toList then some { f with applicationArn := value }
  else if token = "--account".toList then some { f with account := value }
  else if token = "--permission-set".toList then some { f with permissionSet := value }
  else none

/-- The loop of `parse`. -/
def readFlags (f : Flags) : List (List Char) → Flags
  | [] => f
  | [token] => (f.set token none).getD f
  | token :: value :: rest =>
    match f.set token (some value) with
    | some f => readFlags f rest
    | none => readFlags f (value :: rest)

namespace CredentialProcessLine

/-- `CredentialProcessLine::parse`. -/
def parse (credentialProcess : List Char) : Option CredentialProcessLine :=
  let f := readFlags {} (tokenize credentialProcess)
  match f.roleArn.filter ("arn:aws".toList.isPrefixOf ·) with
  | some roleArn => some (.role roleArn f.via)
  | none =>
    match f.account, f.permissionSet with
    | some account, some permissionSet =>
      some (.identityCenter f.applicationArn account permissionSet)
    | _, _ => none

/-- `CredentialProcessLine::render`. -/
def render (vouchPath : List Char) : CredentialProcessLine → List Char
  | role roleArn (some via) =>
    '"' :: vouchPath ++ "\" credential aws --role ".toList ++ roleArn ++ " --via ".toList ++ via
  | role roleArn none => '"' :: vouchPath ++ "\" credential aws --role ".toList ++ roleArn
  | identityCenter (some applicationArn) account permissionSet =>
    '"' :: vouchPath ++ "\" credential aws --idc-application ".toList ++ applicationArn ++
      " --account ".toList ++ account ++ " --permission-set ".toList ++ permissionSet
  | identityCenter none account permissionSet =>
    '"' :: vouchPath ++ "\" credential aws --account ".toList ++ account ++
      " --permission-set ".toList ++ permissionSet

/-- The words behind the path. -/
def words : CredentialProcessLine → List (List Char)
  | role roleArn via =>
    "credential".toList :: "aws".toList :: "--role".toList :: roleArn ::
      via.elim [] (["--via".toList, ·])
  | identityCenter applicationArn account permissionSet =>
    "credential".toList :: "aws".toList ::
      (applicationArn.elim [] (["--idc-application".toList, ·]) ++
        ["--account".toList, account, "--permission-set".toList, permissionSet])

/-- The values need no quotes, and a role is named by its ARN. -/
def isPlain : CredentialProcessLine → Bool
  | role roleArn via => "arn:aws".toList.isPrefixOf roleArn && isWord roleArn && via.all isWord
  | identityCenter applicationArn account permissionSet =>
    applicationArn.all isWord && isWord account && isWord permissionSet

theorem render_eq (path : List Char) (line : CredentialProcessLine) :
    line.render path = '"' :: path ++ '"' :: spaced line.words := by
  rcases line with ⟨roleArn, _ | via⟩ | ⟨_ | applicationArn, account, permissionSet⟩ <;>
    simp only [render, words, spaced, Option.elim_none, Option.elim_some, List.flatMap_append,
      List.flatMap_cons, List.flatMap_nil, List.append_assoc, List.append_nil] <;> rfl

/-- The loop passes over the path and the subcommand. -/
theorem readFlags_command {path flag : List Char} (hpath : path.head? ≠ some '-') (f : Flags)
    (rest : List (List Char)) :
    readFlags f (path :: "credential".toList :: "aws".toList :: flag :: rest) =
      readFlags f (flag :: rest) := by
  have hne : ∀ flag : List Char, flag.head? = some '-' → path ≠ flag := by
    rintro flag hflag rfl
    exact hpath hflag
  have hset : ∀ value, f.set path value = none := by
    intro value
    rw [Flags.set, if_neg (hne _ rfl), if_neg (hne _ rfl), if_neg (hne _ rfl), if_neg (hne _ rfl),
      if_neg (hne _ rfl)]
  rw [readFlags, hset]
  rfl

/-- **What was written is read back.** -/
theorem parse_rendered_line {path : List Char} {line : CredentialProcessLine} (hne : path ≠ [])
    (hpath : path.head? ≠ some '-') (hquote : '"' ∉ path) (hplain : line.isPlain = true) :
    parse (line.render path) = some line := by
  have hwords : line.words.all isWord = true := by
    have hfixed : ["credential", "aws", "--role", "--via", "--idc-application", "--account",
        "--permission-set"].all (isWord ·.toList) = true := by decide
    rcases line with ⟨roleArn, _ | via⟩ | ⟨_ | applicationArn, account, permissionSet⟩ <;>
      simp_all [isPlain, words]
  rw [parse, render_eq, tokenize_command hne hquote hwords]
  rcases line with ⟨roleArn, via⟩ | ⟨applicationArn, account, permissionSet⟩
  · simp only [isPlain, Bool.and_eq_true] at hplain
    have hread : readFlags {} (path :: (role roleArn via).words) =
      { roleArn := some roleArn, via } := by
      cases via <;> exact readFlags_command hpath {} _
    simp only [hread, Option.filter_some, hplain.1.1, if_true]
  · have hread :
      readFlags {} (path :: (identityCenter applicationArn account permissionSet).words) =
        { applicationArn, account := some account, permissionSet := some permissionSet } := by
      cases applicationArn <;> exact readFlags_command hpath {} _
    simp only [hread, Option.filter_none]

/-- Values that look like flags, and a path with a space. -/
theorem parse_rendered_flags :
    (role "arn:aws:iam::1:role/x".toList (some "--role".toList)).isPlain = true ∧
      parse (render "/opt/my vouch".toList
        (role "arn:aws:iam::1:role/x".toList (some "--role".toList))) =
      some (role "arn:aws:iam::1:role/x".toList (some "--role".toList)) :=
  ⟨by decide, parse_rendered_line (by decide) (by decide) (by decide) (by decide)⟩

end CredentialProcessLine

end Vouch.Aws
