import CopilotFleet.Lib.Joined
import CopilotFleet.Lib.Split
import CopilotFleet.Lib.Utf16

/-!
# Command Identities

A saved permission covers a command by its key, and the key is the command
written again: the executable as the shell looks it up, then the arguments,
each in quotes where it has white space in it. Only one small literal grammar
has a key at all (`literalArguments`), and of it only what is not a shell, an
interpreter or an option that runs or configures something else.

Two commands of one key are told apart by nothing but what was left out of the
key on purpose: recognized flags of Git, the arguments behind `npm run`, and
where a change of directory leads (`commandKey_determines`). For that the key
has to be read in one way, which holds because no argument of the grammar has a
quote in it and none is empty (`literalKey_injective`).

## Main definitions

* `Platform`: What a Node takes from the system it runs on.
* `literalArguments`: The arguments of a single literal invocation.
* `literalKey`: The arguments as they are written in a key.
* `commandPermissionIdentity`: The key of a command, and why it has none.
* `Shown`: What is written of a command in its key, by the kind of its tool.

## Theorems

* `literalKey_injective`: Arguments are read back from a key.
* `commandPermissionIdentity_shown`: What a key says of the command it was given for.
* `commandKey_determines`: Commands of one key are the same up to what is ignored.
-/

namespace CopilotFleet

namespace CommandPermissions

open Utf16 Joined

/-! ### The system -/

def asciiLower (u : UInt16) : UInt16 := if 0x41 ≤ u && u ≤ 0x5A then u + 0x20 else u

def hexDigit (u : UInt16) : Bool := (0x30 ≤ u && u ≤ 0x39) || (0x61 ≤ u && u ≤ 0x66)

/-- `/^[a-f0-9]{64}$/`. -/
def isDigest (text : Text) : Bool := text.length = 64 && text.all hexDigit

/-- What a Node takes from the system it runs on. -/
structure Platform where
  /-- `process.platform === "win32"`. -/
  win32 : Bool
  toLowerCase : Text → Text
  /-- Letters of ASCII are lowered one by one. -/
  lowers_ascii : ∀ text : Text, (∀ u ∈ text, u < 0x80) → toLowerCase text = text.map asciiLower
  /-- `normalize` and `isAbsolute` of `node:path`. -/
  normalize : Text → Text
  isAbsolute : Text → Bool
  /-- The digest of some bytes, in hexadecimal digits. -/
  sha256 : List UInt8 → Text
  sha256_digest : ∀ bytes, isDigest (sha256 bytes) = true

variable (platform : Platform)

/-! ### Literal invocations -/

def dquote : UInt16 := 0x22

def squote : UInt16 := 0x27

def isQuote (u : UInt16) : Bool := u = dquote || u = squote

/-- A control character, or one a shell may give a meaning to. -/
def isSpecial (u : UInt16) : Bool :=
  u < 0x20 || u = 0x7F || (ofString ";&|<>`$()\x7b\x7d[]#@?%!").contains u

/-- `text.replace(/ +/g, " ")`. -/
def singleSpaced : Text → Text
  | [] => []
  | u :: rest =>
      if u = 0x20 && rest.head? = some 0x20 then singleSpaced rest else u :: singleSpaced rest

/-- What `/"[^"]*"|'[^']*'|[^\s"']+/g` finds in a text. -/
def tokens : Text → List Text
  | [] => []
  | u :: rest =>
      if isQuote u then
        let inner := rest.takeWhile (· ≠ u)
        -- A quote that is not closed is passed over.
        if inner.length = rest.length then tokens rest
        else (u :: (inner ++ [u])) :: tokens (rest.drop (inner.length + 1))
      else if isSpace u then tokens rest
      else
        let word := rest.takeWhile fun v => !isQuote v && !isSpace v
        (u :: word) :: tokens (rest.drop word.length)
termination_by text => text.length
decreasing_by all_goals simp only [List.length_cons, List.length_drop]; omega

/-- `/^["']/.test(token)`. -/
def opensQuote (token : Text) : Bool := token.head?.any isQuote

/-- `token.slice(1, -1)`. -/
def inside (token : Text) : Text := (token.drop 1).dropLast

def unquoted (token : Text) : Text := if opensQuote token then inside token else token

/-- The arguments of a command that is one literal invocation and nothing else. -/
def literalArguments (command : Text) (wildcard : Bool) : Option (List Text) :=
  if command.any isSpecial || (!wildcard && command.contains 0x2A) then none
  else
    let trimmed := Split.trim isSpace command
    let found := tokens trimmed
    if found.isEmpty || found.head?.any opensQuote ||
        [0x20].intercalate found ≠ singleSpaced trimmed ||
        found.any fun token => (inside token).any isQuote then none
    else
      let args := found.map unquoted
      if args.any List.isEmpty then none else some args

/-- An argument as it is written in a key. -/
def shown (arg : Text) : Text :=
  if arg.any isSpace then squote :: (arg ++ [squote]) else arg

def literalKey (args : List Text) : Text := [0x20].intercalate (args.map shown)

/-- The executable name as the command's shell will look it up. -/
def executableName (name : Text) : Text :=
  if platform.win32 then platform.toLowerCase name else name

/-- `cd` everywhere, PowerShell's `Set-Location` only on Windows. -/
def isDirectoryChange (executable : Text) : Bool :=
  executable = ofString "cd" || (platform.win32 && executable = ofString "set-location")

def literalInvocation (command : Text) (wildcard : Bool) : Option Text :=
  match literalArguments command wildcard with
  | some (name :: rest) => some (literalKey (executableName platform name :: rest))
  | _ => none

/-! ### Known tools -/

def words (text : String) : List Text := (ofString text).splitOn 0x20

def gitCommands : List Text := words "add am apply archive bisect blame branch checkout cherry cherry-pick clean clone commit describe diff fetch grep init log ls-files ls-remote ls-tree merge mv pull push rebase reflog remote reset restore revert rm show stash status switch tag"

/-- The flags of Git that do not change what permission a command needs. -/
def gitFlags : List Text := words "-- -s -b -v -q -a -u --short --branch --verbose --quiet --all --no-pager --oneline --stat --numstat --name-only --name-status --cached --staged --hard --soft --mixed --dry-run --force --porcelain --porcelain=1 --porcelain=2 --untracked-files --untracked-files=no --untracked-files=normal --untracked-files=all"

def dotnetCommands : List Text :=
  words "build test restore clean pack publish format list add remove new"

def cargoCommands : List Text := words "build test check clippy fmt doc clean fetch metadata tree update generate-lockfile package publish install uninstall new init"

def npmCommands : List Text := words "install ci update uninstall rebuild dedupe test start stop restart pack publish audit outdated list ls view"

def interpreterNames : List Text := words "powershell powershell_ise pwsh cmd command sh bash dash zsh fish ksh csh tcsh ash busybox env xargs node nodejs npx pnpx py perl ruby php java javaw js jsc csi r rscript wscript cscript mshta msiexec installutil regasm regsvcs lua luajit tclsh wish deno bun tsx ts-node rundll32 regsvr32 runas sudo doas ssh psexec schtasks wmic forfiles"

/-- Options that run, configure or read something else, without what follows `=`. -/
def executionOptions : List Text := words "-c -e -p -x -enc -encodedcommand -encodedarguments -command -file --enc --encodedcommand --encodedarguments --command --file --config --config-env --git-dir --work-tree --namespace --exec --exec-path --upload-pack --receive-pack --ext-diff --textconv --paginate --prefix --cwd --directory --workspaces --workspace --userconfig --globalconfig --script-shell --shell --eval --require --import --loader --open --browser"

def dispatchVerbs : List Text := words "exec eval shell run invoke command script"

def infoFlags : List Text := words "--version --help --info"

def runVerbs : List Text := words "run run-script"

def lowered (text : Text) : Text := text.map asciiLower

def isLetter (u : UInt16) : Bool := (0x41 ≤ u && u ≤ 0x5A) || (0x61 ≤ u && u ≤ 0x7A)

def isDigit (u : UInt16) : Bool := 0x30 ≤ u && u ≤ 0x39

/-- `[a-z0-9_-]`, in either case. -/
def isNameUnit (u : UInt16) : Bool := isLetter u || isDigit u || u = 0x5F || u = 0x2D

/-- The text without the first of the endings it has, in either case. -/
def withoutEnding (text : Text) (endings : List Text) : Text :=
  match endings.find? fun ending => ending.isSuffixOf (lowered text) with
  | some ending => text.take (text.length - ending.length)
  | none => text

def isPermissionExecutableName (name : Text) : Bool :=
  let stem := withoutEnding name (words ".exe .com")
  (stem.head?.any isLetter && stem.all isNameUnit) ||
    (words "npm.cmd npm.ps1").contains (lowered name)

def toolOf (executable : Text) : Text := withoutEnding executable (words ".exe .com .cmd .ps1")

/-- `interpreters.test(tool)`. -/
def isInterpreter (tool : Text) : Bool :=
  interpreterNames.contains (lowered tool) ||
    ((ofString "python").isPrefixOf (lowered tool) && (tool.drop 6).all isDigit)

def isExecutionOption (arg : Text) : Bool :=
  executionOptions.contains (lowered (arg.takeWhile (· ≠ 0x3D)))

/-! ### The key of a command -/

def isSlash (u : UInt16) : Bool := u = 0x5C || u = 0x2F

/-- `/^[\\/]{2}/.test(path)`. -/
def isNetworkPath (path : Text) : Bool := path.length ≥ 2 && (path.take 2).all isSlash

/-- `/:(?![\\/])/.test(path)`. -/
def hasBareColon : Text → Bool
  | [] => false
  | u :: rest => (u = 0x3A && !rest.head?.any isSlash) || hasBareColon rest

/-- `/^[a-zA-Z]:[\\/][^:]*$/.test(path)`. -/
def isDrivePath : Text → Bool
  | drive :: colon :: slash :: rest =>
      isLetter drive && colon = 0x3A && isSlash slash && !rest.contains 0x3A
  | _ => false

/-- Exactly one literal local filesystem path. -/
def isLocalPath (path : Text) : Bool :=
  !path.head?.any (fun u => u = 0x2D || u = 0x7E) && !isNetworkPath path && !hasBareColon path &&
    (!path.contains 0x3A || isDrivePath path)

def startsDash (arg : Text) : Bool := arg.head? = some 0x2D

/-- `/^[a-zA-Z0-9][a-zA-Z0-9:_-]*$/.test(script)`. -/
def isScriptName (script : Text) : Bool :=
  script.head?.any (fun u => isLetter u || isDigit u) &&
    script.all fun u => isNameUnit u || u = 0x3A

/-- The key a command can be permitted by, and what to say about it. -/
structure Identity where
  commandKey : Option Text := none
  explanation : Text
  deriving DecidableEq

def once (detail : String) : Identity where
  explanation := ofString detail ++ ofString " Command-family matching fails closed rather than guessing PowerShell parsing; an explicit exact-script grant is required for reuse."

/-- The verbs a tool is known to have. -/
def knownCommands (tool : Text) : Option (List Text) :=
  if tool = ofString "dotnet" then some dotnetCommands
  else if tool = ofString "cargo" then some cargoCommands
  else if tool = ofString "npm" then some npmCommands
  else none

def isGit (tool : Text) : Bool := tool = ofString "git"

/-- `npm run`, in either spelling. -/
def runsScript (tool : Text) (rest : List Text) : Bool :=
  tool = ofString "npm" && rest.head?.any runVerbs.contains

/-- The key of a tool that is neither Git nor `npm run`, by its arguments. -/
def plainKey (executable tool : Text) (rest : List Text) : Except String Text :=
  match knownCommands tool with
  | some commands =>
      if !commands.contains (rest.headD []) && !infoFlags.contains (rest.headD []) then
        .error "Unknown tool plugins, aliases, and code-dispatch subcommands are Once-only."
      else .ok (literalKey (executable :: rest))
  | none =>
      if rest.any fun arg => dispatchVerbs.contains (lowered arg) then
        .error "Unrecognized command-dispatch forms cannot reuse permission."
      else .ok (literalKey (executable :: rest))

/-- Operands are kept, nested verbs too; simple flag variants share the key. -/
def gitKey (executable : Text) (rest : List Text) : Except String Text :=
  match rest with
  | [] => .error "A known, literal Git subcommand is required; aliases and global options are not reusable."
  | subcommand :: more =>
      if !gitCommands.contains subcommand then
        .error "A known, literal Git subcommand is required; aliases and global options are not reusable."
      else if more.any fun arg => startsDash arg && !gitFlags.contains arg then
        .error "Only recognized ordinary Git flags can reuse permission; option abbreviations and execution/path options are Once-only."
      else .ok (literalKey (executable :: subcommand :: more.filter fun arg => !startsDash arg))

def scriptKey (executable : Text) (rest : List Text) : Except String Text :=
  match rest with
  | _ :: script :: more =>
      if !isScriptName script || more.head?.any (· ≠ ofString "--") then
        .error "npm run requires one literal script identity before optional script arguments."
      else .ok (executable ++ (ofString " run " ++ script))
  | _ => .error "npm run requires one literal script identity before optional script arguments."

def commandPermissionIdentity (command : Text) : Identity :=
  match literalArguments command false with
  | none | some [] => once "The command is not a reliable single literal invocation."
  | some (name :: rest) =>
      if !isPermissionExecutableName name then
        once "Executable paths, expressions, and unknown command identities are not reusable."
      else
        let executable := executableName platform name
        let tool := toolOf executable
        if isDirectoryChange platform executable then
          match rest with
          | [path] =>
              if isLocalPath path then
                { commandKey := some executable
                  explanation := ofString "Standalone literal local directory navigation only; no following script." }
              else once "Directory navigation must have exactly one literal local filesystem path."
          | _ => once "Directory navigation must have exactly one literal local filesystem path."
        else if isInterpreter tool then
          once "Shells, code interpreters, and command-dispatch wrappers are not reusable."
        else if rest.any isExecutionOption then
          once "Execution-, configuration-, or path-changing options cannot reuse a grant."
        else
          let key :=
            if isGit tool then gitKey executable rest
            else if runsScript tool rest then scriptKey executable rest
            else plainKey executable tool rest
          match key with
          | .error detail => once detail
          | .ok key =>
              if 200 < key.length then once "The normalized command identity is too long."
              else
                { commandKey := some key
                  explanation :=
                    if isGit tool || runsScript tool rest then
                      ofString "Exact named command/subcommand and canonical working directory; recognized ordinary flags are ignored. This is permission reuse, not a sandbox."
                    else ofString "Exact literal executable, subcommands, arguments and canonical working directory; unfamiliar flags remain in the key rather than guessing their meaning. This is permission reuse, not a sandbox." }

/-! ### Reading a key -/

/-- What an argument of the literal grammar can be. -/
structure Literal (arg : Text) : Prop where
  nonempty : arg ≠ []
  noQuote : ∀ u ∈ arg, isQuote u = false

theorem Literal.no_space {arg : Text} (h : Literal arg) (hspace : arg.any isSpace = false) :
    ∀ u ∈ arg, (u = 0x20 || u = dquote) = false := by
  intro u hu
  have hplain : isSpace u = false := by simpa using List.any_eq_false.mp hspace u hu
  have hquote := h.noQuote u hu
  rw [Bool.or_eq_false_iff, decide_eq_false_iff_not, decide_eq_false_iff_not]
  constructor
  · rintro rfl
    cases hplain
  · rintro rfl
    cases hquote

/-- A text is read in a key up to its closing quote, or up to the next blank. -/
theorem shown_unique {x y : Text} (hx : Literal x) (hy : Literal y) {r r' : Text}
    (hr : Stops (fun u => u = 0x20 || u = dquote) r)
    (hr' : Stops (fun u => u = 0x20 || u = dquote) r')
    (h : shown x ++ r = shown y ++ r') : x = y ∧ r = r' := by
  have hclosed : ∀ arg, Literal arg → ∀ u ∈ arg, isQuote u = false := fun _ harg => harg.noQuote
  have hopen : ∀ arg rest, Literal arg → ∀ s : Text, squote :: s ≠ arg ++ rest := by
    rintro arg rest harg s heq
    cases arg with
    | nil => exact harg.nonempty rfl
    | cons u arg =>
        rw [List.cons_append, List.cons.injEq] at heq
        have hquote := harg.noQuote u List.mem_cons_self
        rw [← heq.1] at hquote
        cases hquote
  unfold shown at h
  split at h
  · split at h
    · -- Both are in quotes.
      rw [List.cons_append, List.cons_append, List.cons.injEq, List.append_assoc,
        List.append_assoc] at h
      rcases append_unique_of_all (hclosed x hx) (hclosed y hy)
        (stops_cons (show isQuote squote = true by decide) r)
        (stops_cons (show isQuote squote = true by decide) r') h.2 with ⟨hxy, hrest⟩
      exact ⟨hxy, (List.cons.inj hrest).2⟩
    · rw [List.cons_append] at h
      exact absurd h (hopen y r' hy _)
  · next hspace =>
    rw [Bool.not_eq_true] at hspace
    split at h
    · change x ++ r = squote :: (y ++ [squote] ++ r') at h
      exact absurd h.symm (hopen x r hx _)
    · next hspace' =>
      rw [Bool.not_eq_true] at hspace'
      exact append_unique_of_all (hx.no_space hspace) (hy.no_space hspace') hr hr' h

/-- Arguments are read back from a key, with a quote behind it to mark its end. -/
theorem literalKey_injective {args args' : List Text} (h : ∀ arg ∈ args, Literal arg)
    (h' : ∀ arg ∈ args', Literal arg) (heq : literalKey args = literalKey args') : args = args' := by
  have hhead : ∀ {arg : Text}, Literal arg → ∃ u, (shown arg).head? = some u ∧ u ≠ dquote := by
    intro arg harg
    unfold shown
    split
    · exact ⟨squote, rfl, by decide⟩
    · cases harg' : arg with
      | nil => exact absurd harg' harg.nonempty
      | cons u rest =>
          refine ⟨u, rfl, ?_⟩
          rintro rfl
          have hquote := harg.noQuote dquote (by rw [harg']; exact List.mem_cons_self)
          cases hquote
  have hjoined : [0x20].intercalate (args.map shown) ++ dquote :: [] =
      [0x20].intercalate (args'.map shown) ++ dquote :: [] := congrArg (· ++ [dquote]) heq
  have hall := (joined_unique (by decide) (by decide) (by decide)
    (fun x hx => hhead (h x hx)) (fun y hy => hhead (h' y hy))
    (fun x hx y hy _ _ hr hr' => shown_unique (h x hx) (h' y hy) hr hr') hjoined).1
  exact List.forall₂_eq_eq_eq ▸ hall

/-! ### The grammar -/

/-- A token is something in quotes, or a run without quotes. -/
theorem mem_tokens {text token : Text} (h : token ∈ tokens text) :
    opensQuote token = true ∨ ∀ u ∈ token, isQuote u = false := by
  induction text using tokens.induct with
  | case1 =>
      rw [tokens] at h
      cases h
  | case2 u rest hquote inner hopen ih =>
      rw [tokens, if_pos hquote, if_pos hopen] at h
      exact ih h
  | case3 u rest hquote inner hclosed ih =>
      rw [tokens, if_pos hquote, if_neg hclosed] at h
      rcases List.mem_cons.mp h with rfl | h
      · exact .inl hquote
      · exact ih h
  | case4 u rest hquote hspace ih =>
      rw [tokens, if_neg hquote, if_pos hspace] at h
      exact ih h
  | case5 u rest hquote hspace word ih =>
      rw [tokens, if_neg hquote, if_neg hspace] at h
      rcases List.mem_cons.mp h with rfl | h
      · right
        intro v hv
        rcases List.mem_cons.mp hv with rfl | hv
        · exact Bool.not_eq_true _ ▸ hquote
        · have hword := List.mem_takeWhile_imp hv
          rw [Bool.and_eq_true, Bool.not_eq_true'] at hword
          exact hword.1
      · exact ih h

/-- No argument of the grammar is empty, and none has a quote in it. -/
theorem literalArguments_literal {command : Text} {wildcard : Bool} {args : List Text}
    (h : literalArguments command wildcard = some args) :
    args ≠ [] ∧ ∀ arg ∈ args, Literal arg := by
  unfold literalArguments at h
  split at h
  · cases h
  dsimp only at h
  split at h
  · cases h
  next hgrammar =>
  split at h
  · cases h
  next hempty =>
  cases h
  simp only [Bool.or_eq_true, not_or, Bool.not_eq_true] at hgrammar
  rcases hgrammar with ⟨⟨⟨hsome, _⟩, _⟩, hinside⟩
  constructor
  · intro hnil
    rw [List.map_eq_nil_iff] at hnil
    rw [hnil] at hsome
    cases hsome
  · intro arg harg
    refine ⟨?_, ?_⟩
    · rintro rfl
      exact hempty (List.any_eq_true.mpr ⟨[], harg, rfl⟩)
    · rcases List.mem_map.mp harg with ⟨token, htoken, rfl⟩
      intro u hu
      unfold unquoted at hu
      split at hu
      · have hno := List.any_eq_false.mp hinside token htoken
        rw [Bool.not_eq_true] at hno
        simpa using List.any_eq_false.mp hno u hu
      · next hopen =>
        rcases mem_tokens htoken with hquoted | hplain
        · exact absurd hquoted hopen
        · exact hplain u hu

/-! ### Names of executables -/

/-- A unit of a name, or the point before an ending. -/
def isPlain (u : UInt16) : Bool := isNameUnit u || u = 0x2E

/-- What holds of the units of ASCII holds of one that is below them. -/
theorem ascii_induction {p : UInt16 → Prop} (h : ∀ n : Fin 128, p (UInt16.ofNat n)) {u : UInt16}
    (hu : u.toNat < 128) : p u := by
  have hu' := h ⟨u.toNat, hu⟩
  rwa [UInt16.ofNat_toNat] at hu'

theorem ascii_of_isPlain {u : UInt16} (h : isPlain u = true) : u.toNat < 128 := by
  have hbelow : ∀ v : UInt16, v ≤ 0x7A → u ≤ v → u.toNat < 128 := by
    intro v hv hu
    rw [UInt16.le_iff_toNat_le] at hv hu
    exact Nat.lt_of_le_of_lt (hu.trans hv) (by decide)
  unfold isPlain isNameUnit isLetter isDigit at h
  simp only [Bool.or_eq_true, Bool.and_eq_true, decide_eq_true_eq] at h
  rcases h with ((((⟨_, h⟩ | ⟨_, h⟩) | ⟨_, h⟩) | rfl) | rfl) | rfl
  · exact hbelow _ (by decide) h
  · exact hbelow _ (by decide) h
  · exact hbelow _ (by decide) h
  all_goals decide

theorem asciiLower_of_le {u : UInt16} (h : 128 ≤ u.toNat) : asciiLower u = u := by
  unfold asciiLower
  rw [if_neg]
  rw [Bool.and_eq_true, decide_eq_true_eq, decide_eq_true_eq]
  rintro ⟨_, hle⟩
  rw [UInt16.le_iff_toNat_le] at hle
  have hz : (0x5A : UInt16).toNat = 0x5A := rfl
  omega

theorem isPlain_lower {u : UInt16} : isPlain (asciiLower u) = isPlain u := by
  by_cases hu : u.toNat < 128
  · exact ascii_induction (p := fun u => isPlain (asciiLower u) = isPlain u) (by decide) hu
  · rw [asciiLower_of_le (by omega)]

theorem isPlain_unit {u : UInt16} (h : isPlain u = true) : isQuote u = false ∧ isSpace u = false :=
  ascii_induction (p := fun u => isPlain u = true → isQuote u = false ∧ isSpace u = false)
    (by decide) (ascii_of_isPlain h) h

/-- What an ending is taken from is what is left and the ending. -/
theorem withoutEnding_plain {text : Text} {endings : List Text}
    (hendings : ∀ ending ∈ endings, ending.all isPlain = true)
    (h : ∀ u ∈ withoutEnding text endings, isPlain u = true) : ∀ u ∈ text, isPlain u = true := by
  unfold withoutEnding at h
  split at h
  · next ending hfound =>
    have hending := hendings ending (List.mem_of_find?_eq_some hfound)
    have hsuffix := List.find?_some hfound
    rcases List.isSuffixOf_iff_suffix.mp hsuffix with ⟨front, hfront⟩
    have hlength := congrArg List.length hfront
    unfold lowered at hfront hlength
    rw [List.length_append, List.length_map] at hlength
    have hdrop : (text.drop (text.length - ending.length)).map asciiLower = ending := by
      rw [List.map_drop, ← hfront, ← hlength, Nat.add_sub_cancel, List.drop_left]
    intro u hu
    rw [← List.take_append_drop (text.length - ending.length) text] at hu
    rcases List.mem_append.mp hu with hu | hu
    · exact h u hu
    · rw [← isPlain_lower]
      have hmem := List.mem_map_of_mem (f := asciiLower) hu
      rw [hdrop] at hmem
      exact List.all_eq_true.mp hending _ hmem
  · exact h

theorem plain_of_name {name : Text} (h : isPermissionExecutableName name = true) :
    name ≠ [] ∧ ∀ u ∈ name, isPlain u = true := by
  unfold isPermissionExecutableName at h
  dsimp only at h
  rw [Bool.or_eq_true, Bool.and_eq_true] at h
  rcases h with ⟨hhead, hstem⟩ | hnpm
  · constructor
    · rintro rfl
      cases hhead
    · have hendings : ∀ ending ∈ words ".exe .com", ending.all isPlain = true := by decide
      refine withoutEnding_plain hendings fun u hu => ?_
      unfold isPlain
      rw [List.all_eq_true.mp hstem u hu]
      rfl
  · have hmem : lowered name ∈ words "npm.cmd npm.ps1" := by simpa using hnpm
    have hall : ∀ word ∈ words "npm.cmd npm.ps1", word.all isPlain = true ∧ word ≠ [] := by
      decide
    constructor
    · rintro rfl
      exact (hall _ hmem).2 rfl
    · intro u hu
      rw [← isPlain_lower]
      exact List.all_eq_true.mp (hall _ hmem).1 _ (List.mem_map_of_mem hu)

/-- The name a shell looks up is an argument like any other, and has no white space. -/
theorem executableName_literal {name : Text} (h : isPermissionExecutableName name = true) :
    Literal (executableName platform name) ∧
      (executableName platform name).any isSpace = false := by
  rcases plain_of_name h with ⟨hne, hplain⟩
  have hname : executableName platform name ≠ [] ∧
      ∀ u ∈ executableName platform name, isPlain u = true := by
    unfold executableName
    split
    · rw [platform.lowers_ascii name fun u hu => ascii_of_isPlain (hplain u hu)]
      constructor
      · exact fun hnil => hne (List.map_eq_nil_iff.mp hnil)
      · intro u hu
        rcases List.mem_map.mp hu with ⟨v, hv, rfl⟩
        rw [isPlain_lower]
        exact hplain v hv
    · exact ⟨hne, hplain⟩
  refine ⟨⟨hname.1, fun u hu => (isPlain_unit (hname.2 u hu)).1⟩, ?_⟩
  rw [List.any_eq_false]
  intro u hu
  rw [(isPlain_unit (hname.2 u hu)).2]
  exact Bool.false_ne_true

/-! ### What a key says -/

/-- What is written of a command in its key behind the executable, by the kind
    of its tool. -/
inductive Shown (executable : Text) : List Text → List Text → Prop where
  | directory (path : Text) (hdirectory : isDirectoryChange platform executable = true) :
      Shown executable [path] []
  | git (subcommand : Text) (more : List Text)
      (hdirectory : isDirectoryChange platform executable = false)
      (htool : isGit (toolOf executable) = true)
      (hflags : ∀ arg ∈ more, startsDash arg = true → arg ∈ gitFlags) :
      Shown executable (subcommand :: more)
        (subcommand :: more.filter fun arg => !startsDash arg)
  | script (verb script : Text) (more : List Text)
      (hdirectory : isDirectoryChange platform executable = false)
      (htool : isGit (toolOf executable) = false)
      (hruns : runsScript (toolOf executable) (verb :: script :: more) = true)
      (hmore : ∀ arg, more.head? = some arg → arg = ofString "--") :
      Shown executable (verb :: script :: more) [ofString "run", script]
  | plain (rest : List Text) (hdirectory : isDirectoryChange platform executable = false)
      (htool : isGit (toolOf executable) = false)
      (hruns : runsScript (toolOf executable) rest = false) : Shown executable rest rest

/-- The arguments of two invocations of one executable, as far as a key tells them apart. -/
structure Alike (executable : Text) (rest₁ rest₂ : List Text) : Prop where
  plain : isGit (toolOf executable) = false → isDirectoryChange platform executable = false →
    runsScript (toolOf executable) rest₁ = false → rest₁ = rest₂
  git : isGit (toolOf executable) = true → ∃ subcommand more₁ more₂,
    rest₁ = subcommand :: more₁ ∧ rest₂ = subcommand :: more₂ ∧
      (more₁.filter fun arg => !startsDash arg) = (more₂.filter fun arg => !startsDash arg) ∧
        ∀ arg ∈ more₁ ++ more₂, startsDash arg = true → arg ∈ gitFlags
  script : runsScript (toolOf executable) rest₁ = true →
    runsScript (toolOf executable) rest₂ = true ∧ ∃ verb₁ verb₂ script more₁ more₂,
      rest₁ = verb₁ :: script :: more₁ ∧ rest₂ = verb₂ :: script :: more₂ ∧
        (∀ arg, more₁.head? = some arg → arg = ofString "--") ∧
          ∀ arg, more₂.head? = some arg → arg = ofString "--"

variable {platform}

theorem plainKey_ok {executable tool key : Text} {rest : List Text}
    (h : plainKey executable tool rest = .ok key) : key = literalKey (executable :: rest) := by
  unfold plainKey at h
  split at h
  · split at h
    · cases h
    · cases h
      rfl
  · split at h
    · cases h
    · cases h
      rfl

theorem gitKey_ok {executable key : Text} {rest : List Text} (h : gitKey executable rest = .ok key) :
    ∃ subcommand more, rest = subcommand :: more ∧
      (∀ arg ∈ more, startsDash arg = true → arg ∈ gitFlags) ∧
        key = literalKey (executable :: subcommand :: more.filter fun arg => !startsDash arg) := by
  unfold gitKey at h
  split at h
  · cases h
  · next subcommand more =>
    split at h
    · cases h
    split at h
    · cases h
    next hflags =>
    cases h
    refine ⟨subcommand, more, rfl, fun arg harg hdash => ?_, rfl⟩
    rw [Bool.not_eq_true, List.any_eq_false] at hflags
    simpa [hdash] using hflags arg harg

/-- A script's name needs no quotes. -/
theorem shown_script {script : Text} (h : isScriptName script = true) :
    Literal script ∧ shown script = script := by
  have hunit : ∀ u : UInt16, (isNameUnit u || u = 0x3A) = true →
      isQuote u = false ∧ isSpace u = false := by
    intro u hu
    rw [Bool.or_eq_true, decide_eq_true_eq] at hu
    rcases hu with hu | rfl
    · refine isPlain_unit ?_
      unfold isPlain
      rw [hu]
      rfl
    · decide
  unfold isScriptName at h
  rw [Bool.and_eq_true] at h
  have hall := fun u hu => hunit u (List.all_eq_true.mp h.2 u hu)
  refine ⟨⟨?_, fun u hu => (hall u hu).1⟩, ?_⟩
  · rintro rfl
    cases h.1
  · unfold shown
    rw [if_neg]
    rw [List.any_eq_true]
    rintro ⟨u, hu, hspace⟩
    rw [(hall u hu).2] at hspace
    cases hspace

theorem scriptKey_ok {executable key : Text} {rest : List Text}
    (hname : executable.any isSpace = false) (h : scriptKey executable rest = .ok key) :
    ∃ verb script more, rest = verb :: script :: more ∧ Literal script ∧
      (∀ arg, more.head? = some arg → arg = ofString "--") ∧
        key = literalKey [executable, ofString "run", script] := by
  unfold scriptKey at h
  split at h
  · next verb script more =>
    split at h
    · cases h
    next hscript =>
    cases h
    rw [Bool.or_eq_true, not_or, Bool.not_eq_true', Bool.not_eq_false] at hscript
    rcases shown_script hscript.1 with ⟨hliteral, hshown⟩
    refine ⟨verb, script, more, rfl, hliteral, fun arg harg => ?_, ?_⟩
    · have hmore := hscript.2
      rw [harg] at hmore
      simpa using hmore
    · have hexecutable : shown executable = executable := by
        unfold shown
        rw [if_neg (by rw [hname]; exact Bool.false_ne_true)]
      have hrun : shown (ofString "run") = ofString "run" := by decide
      unfold literalKey
      rw [List.map_cons, List.map_cons, List.map_singleton, hexecutable, hrun, hshown,
        List.intercalate_cons_cons, List.intercalate_cons_cons, List.intercalate_singleton,
        show ofString " run " = [0x20] ++ (ofString "run" ++ [0x20]) by decide]
      simp only [List.append_assoc]
  · cases h

/-- A command with a key is a literal invocation, and its key is the name its shell looks up
    and what is shown of its arguments. -/
theorem commandPermissionIdentity_shown {command key : Text}
    (h : (commandPermissionIdentity platform command).commandKey = some key) :
    ∃ name rest out, literalArguments command false = some (name :: rest) ∧
      Shown platform (executableName platform name) rest out ∧
        (∀ arg ∈ executableName platform name :: out, Literal arg) ∧
          key = literalKey (executableName platform name :: out) := by
  unfold commandPermissionIdentity at h
  split at h
  · cases h
  · cases h
  next name rest hargs =>
  have hliteral := (literalArguments_literal hargs).2
  have hrest : ∀ arg ∈ rest, Literal arg := fun arg harg =>
    hliteral arg (List.mem_cons_of_mem name harg)
  split at h
  · cases h
  next hname =>
  rw [Bool.not_eq_true', Bool.not_eq_false] at hname
  rcases @executableName_literal platform name hname with ⟨hexecutable, hspace⟩
  -- The executable's name is a literal, so the whole is where the arguments are.
  have hcons : ∀ {out : List Text}, (∀ arg ∈ out, Literal arg) →
      ∀ arg ∈ executableName platform name :: out, Literal arg := by
    intro out hout arg harg
    rcases List.mem_cons.mp harg with rfl | harg
    · exact hexecutable
    · exact hout arg harg
  dsimp only at h
  split at h
  · -- Where a change of directory leads is not in its key.
    next hdirectory =>
    split at h
    · next path =>
      split at h
      · cases h
        refine ⟨name, [path], [], hargs, .directory path hdirectory,
          hcons fun arg harg => absurd harg List.not_mem_nil, ?_⟩
        unfold literalKey shown
        rw [List.map_singleton, List.intercalate_singleton,
          if_neg (by rw [hspace]; exact Bool.false_ne_true)]
      · cases h
    · cases h
  · next hdirectory =>
    rw [Bool.not_eq_true] at hdirectory
    split at h
    · cases h
    split at h
    · cases h
    split at h
    · cases h
    next found hfound =>
    split at h
    · cases h
    cases h
    split at hfound
    · -- Git is shown by its subcommand and flags.
      next htool =>
      rcases gitKey_ok hfound with ⟨subcommand, more, rfl, hflags, rfl⟩
      refine ⟨name, _, _, hargs, .git subcommand more hdirectory htool hflags,
        hcons fun arg harg => hrest arg ?_, rfl⟩
      rcases List.mem_cons.mp harg with rfl | harg
      · exact List.mem_cons_self
      · exact List.mem_cons_of_mem _ (List.mem_filter.mp harg).1
    · next htool =>
      rw [Bool.not_eq_true] at htool
      split at hfound
      · -- A script runner is shown by its verb and the script's name.
        next hruns =>
        rcases scriptKey_ok hspace hfound with ⟨verb, script, more, rfl, hscript, hmore, rfl⟩
        refine ⟨name, _, _, hargs, .script verb script more hdirectory htool hruns hmore,
          hcons fun arg harg => ?_, rfl⟩
        rcases List.mem_cons.mp harg with rfl | harg
        · have hrun : ofString "run" ≠ [] ∧ ∀ u ∈ ofString "run", isQuote u = false := by
            decide
          exact ⟨hrun.1, hrun.2⟩
        · rw [List.mem_singleton.mp harg]
          exact hscript
      · next hruns =>
        rw [Bool.not_eq_true] at hruns
        exact ⟨name, rest, rest, hargs, .plain rest hdirectory htool hruns, hcons hrest,
          plainKey_ok hfound⟩

/-- A change of directory is neither Git nor a script of npm. -/
theorem directory_tool {executable : Text} (h : isDirectoryChange platform executable = true) :
    isGit (toolOf executable) = false ∧ ∀ rest, runsScript (toolOf executable) rest = false := by
  have hnone : ∀ name, (name = ofString "cd" ∨ name = ofString "set-location") →
      isGit (toolOf name) = false ∧ decide (toolOf name = ofString "npm") = false := by
    rintro name (rfl | rfl)
    · decide
    · decide
  unfold isDirectoryChange at h
  rw [Bool.or_eq_true, Bool.and_eq_true, decide_eq_true_eq, decide_eq_true_eq] at h
  rcases hnone executable (h.imp_right And.right) with ⟨hgit, hnpm⟩
  refine ⟨hgit, fun rest => ?_⟩
  unfold runsScript
  rw [hnpm]
  rfl

/-- The tool of a script is npm, which is not run by any other verb. -/
theorem runsScript_run {tool : Text} {rest : List Text} (h : runsScript tool rest = true)
    (script : Text) : runsScript tool [ofString "run", script] = true := by
  unfold runsScript at h ⊢
  rw [Bool.and_eq_true] at h
  rw [h.1]
  have hverb : runVerbs.contains (ofString "run") = true := by decide
  exact hverb

theorem not_git_of_runs {tool : Text} {rest : List Text} (h : runsScript tool rest = true) :
    isGit tool = false := by
  unfold runsScript at h
  rw [Bool.and_eq_true, decide_eq_true_eq] at h
  rw [h.1]
  decide

section Alike

variable {executable : Text} {rest₁ rest₂ out₁ out₂ : List Text}

theorem Shown.same_rest (h₁ : Shown platform executable rest₁ out₁)
    (h₂ : Shown platform executable rest₂ out₂) (hout : out₁ = out₂)
    (hgit : isGit (toolOf executable) = false)
    (hdirectory : isDirectoryChange platform executable = false)
    (hruns : runsScript (toolOf executable) rest₁ = false) : rest₁ = rest₂ := by
  cases h₁ with
  | directory path hyes => cases hyes.symm.trans hdirectory
  | git subcommand more _ htool _ => cases htool.symm.trans hgit
  | script verb script more _ _ hyes _ => cases hyes.symm.trans hruns
  | plain rest _ _ _ =>
      cases h₂ with
      | directory path hyes => cases hyes.symm.trans hdirectory
      | git subcommand more _ htool _ => cases htool.symm.trans hgit
      | script verb script more _ _ hyes _ =>
          -- What is shown of a script would have been run as one.
          rw [hout] at hruns
          cases (runsScript_run hyes script).symm.trans hruns
      | plain rest _ _ _ => exact hout

theorem Shown.same_git (h₁ : Shown platform executable rest₁ out₁)
    (h₂ : Shown platform executable rest₂ out₂) (hout : out₁ = out₂)
    (hgit : isGit (toolOf executable) = true) :
    ∃ subcommand more₁ more₂, rest₁ = subcommand :: more₁ ∧ rest₂ = subcommand :: more₂ ∧
      (more₁.filter fun arg => !startsDash arg) = (more₂.filter fun arg => !startsDash arg) ∧
        ∀ arg ∈ more₁ ++ more₂, startsDash arg = true → arg ∈ gitFlags := by
  cases h₁ with
  | directory path hyes => cases (directory_tool hyes).1.symm.trans hgit
  | script verb script more _ htool _ _ => cases htool.symm.trans hgit
  | plain rest _ htool _ => cases htool.symm.trans hgit
  | git subcommand more _ _ hflags =>
      cases h₂ with
      | directory path hyes => cases (directory_tool hyes).1.symm.trans hgit
      | script verb script more _ htool _ _ => cases htool.symm.trans hgit
      | plain rest _ htool _ => cases htool.symm.trans hgit
      | git subcommand' more' _ _ hflags' =>
          rw [List.cons.injEq] at hout
          rcases hout with ⟨rfl, hmore⟩
          refine ⟨subcommand, more, more', rfl, rfl, hmore, fun arg harg => ?_⟩
          rcases List.mem_append.mp harg with harg | harg
          · exact hflags arg harg
          · exact hflags' arg harg

theorem Shown.same_script (h₁ : Shown platform executable rest₁ out₁)
    (h₂ : Shown platform executable rest₂ out₂) (hout : out₁ = out₂)
    (hruns : runsScript (toolOf executable) rest₁ = true) :
    runsScript (toolOf executable) rest₂ = true ∧ ∃ verb₁ verb₂ script more₁ more₂,
      rest₁ = verb₁ :: script :: more₁ ∧ rest₂ = verb₂ :: script :: more₂ ∧
        (∀ arg, more₁.head? = some arg → arg = ofString "--") ∧
          ∀ arg, more₂.head? = some arg → arg = ofString "--" := by
  cases h₁ with
  | directory path hyes => cases ((directory_tool hyes).2 _).symm.trans hruns
  | git subcommand more _ htool _ => cases htool.symm.trans (not_git_of_runs hruns)
  | plain rest _ _ hno => cases hno.symm.trans hruns
  | script verb script more _ _ _ hmore =>
      cases h₂ with
      | directory path hyes => cases ((directory_tool hyes).2 _).symm.trans hruns
      | git subcommand more _ htool _ => cases htool.symm.trans (not_git_of_runs hruns)
      | plain rest _ _ hno =>
          rw [← hout] at hno
          cases hno.symm.trans (runsScript_run hruns script)
      | script verb' script' more' _ _ hruns' hmore' =>
          rw [List.cons.injEq, List.cons.injEq] at hout
          rcases hout with ⟨_, rfl, _⟩
          exact ⟨hruns', verb, verb', script, more, more', rfl, rfl, hmore, hmore'⟩

/-- Of two invocations of one executable the same is shown only where they are alike. -/
theorem Shown.alike (h₁ : Shown platform executable rest₁ out₁)
    (h₂ : Shown platform executable rest₂ out₂) (hout : out₁ = out₂) :
    Alike platform executable rest₁ rest₂ where
  plain := h₁.same_rest h₂ hout
  git := h₁.same_git h₂ hout
  script := h₁.same_script h₂ hout

end Alike

/-- Two command texts of one key are literal invocations of one executable. Their arguments are
    the same, but for recognized flags of Git, for what follows a literal `--` behind the name
    of an `npm run` script, and for where a change of directory leads. -/
theorem commandKey_determines {c₁ c₂ key : Text}
    (h₁ : (commandPermissionIdentity platform c₁).commandKey = some key)
    (h₂ : (commandPermissionIdentity platform c₂).commandKey = some key) :
    ∃ name₁ rest₁ name₂ rest₂, literalArguments c₁ false = some (name₁ :: rest₁) ∧
      literalArguments c₂ false = some (name₂ :: rest₂) ∧
        executableName platform name₁ = executableName platform name₂ ∧
          Alike platform (executableName platform name₁) rest₁ rest₂ := by
  rcases commandPermissionIdentity_shown h₁ with ⟨name₁, rest₁, out₁, hargs₁, hshown₁, hlit₁, hkey₁⟩
  rcases commandPermissionIdentity_shown h₂ with ⟨name₂, rest₂, out₂, hargs₂, hshown₂, hlit₂, hkey₂⟩
  have hsame := literalKey_injective hlit₁ hlit₂ (hkey₁.symm.trans hkey₂)
  rw [List.cons.injEq] at hsame
  rcases hsame with ⟨hname, hout⟩
  rw [← hname] at hshown₂
  exact ⟨name₁, rest₁, name₂, rest₂, hargs₁, hargs₂, hname, hshown₁.alike hshown₂ hout⟩

/-- A system without Windows' case folding, as far as it is needed to look at a command. -/
def posix : Platform where
  win32 := false
  toLowerCase := lowered
  lowers_ascii _ _ := rfl
  normalize path := path
  isAbsolute path := path.head? = some 0x2F
  sha256 _ := List.replicate 64 0x30
  sha256_digest _ := by decide

/-- The words of a literal, read as its letters. -/
theorem words_ofList (letters : List Char) :
    words (String.ofList letters) = (letters.flatMap units).splitOn 0x20 := by
  rw [words, ofString, String.toList_ofList]

theorem mem_words {arg : Text} {letters : List Char}
    (h : arg ∈ (letters.flatMap units).splitOn 0x20) : arg ∈ words (String.ofList letters) := by
  rw [words_ofList]
  exact h

theorem not_mem_words {arg : Text} {letters : List Char}
    (h : arg ∉ (letters.flatMap units).splitOn 0x20) : arg ∉ words (String.ofList letters) := by
  rw [words_ofList]
  exact h

set_option maxRecDepth 4000 in
/-- What a call of Git with known flags is permitted by. -/
theorem commandKey_git {command subcommand : Text} {more : List Text}
    (hargs : literalArguments command false = some (ofString "git" :: subcommand :: more))
    (hknown : subcommand ∈ gitCommands)
    (hflags : ∀ arg ∈ more, startsDash arg = true → arg ∈ gitFlags)
    (hplain : (subcommand :: more).any isExecutionOption = false)
    (hshort : (literalKey (ofString "git" :: subcommand :: more.filter fun arg =>
      !startsDash arg)).length ≤ 200) :
    (commandPermissionIdentity posix command).commandKey =
      some (literalKey (ofString "git" :: subcommand :: more.filter fun arg =>
        !startsDash arg)) := by
  have hname : isPermissionExecutableName (ofString "git") = true := by decide
  have hexecutable : executableName posix (ofString "git") = ofString "git" := rfl
  have htool : toolOf (ofString "git") = ofString "git" := by decide
  have hdirectory : isDirectoryChange posix (ofString "git") = false := by decide
  have hinterpreter : isInterpreter (ofString "git") = false := by
    have hnamed : lowered (ofString "git") ∉ interpreterNames := not_mem_words (by decide)
    unfold isInterpreter
    rw [List.contains_eq_mem, decide_eq_false hnamed, Bool.false_or]
    decide
  have hgit : isGit (ofString "git") = true := by decide
  have hkey : gitKey (ofString "git") (subcommand :: more) =
      .ok (literalKey (ofString "git" :: subcommand :: more.filter fun arg =>
        !startsDash arg)) := by
    have hmore : (more.any fun arg => startsDash arg && !gitFlags.contains arg) = false := by
      rw [List.any_eq_false]
      intro arg harg
      cases hdash : startsDash arg with
      | false => simp
      | true => simp [hflags arg harg hdash]
    unfold gitKey
    simp only [List.contains_eq_mem, decide_eq_true hknown, Bool.not_true] at hmore ⊢
    rw [hmore]
    rfl
  unfold commandPermissionIdentity
  rw [hargs]
  simp only [hname, hexecutable, htool, hdirectory, hinterpreter, hplain, hgit, hkey,
    Nat.not_lt.mpr hshort, if_true, if_false, Bool.not_true, Bool.false_eq_true]

theorem not_executionOption {arg : Text}
    (h : lowered (arg.takeWhile (· ≠ 0x3D)) ∉ executionOptions) :
    isExecutionOption arg = false := by
  unfold isExecutionOption
  rw [List.contains_eq_mem, decide_eq_false h]

set_option maxRecDepth 4000 in
/-- A push with one known flag is permitted as a push. -/
theorem commandKey_push {command : Text} (flag : Text)
    (hargs : literalArguments command false = some [ofString "git", ofString "push", flag])
    (hdash : startsDash flag = true) (hflag : flag ∈ gitFlags)
    (hplain : isExecutionOption flag = false) :
    (commandPermissionIdentity posix command).commandKey = some (ofString "git push") := by
  have hfilter : [flag].filter (fun arg => !startsDash arg) = [] := by simp [hdash]
  have hkey := commandKey_git hargs (mem_words (by decide))
    (fun arg harg _ => by
      rw [List.mem_singleton.mp harg]
      exact hflag)
    (by
      have hpush : isExecutionOption (ofString "push") = false :=
        not_executionOption (not_mem_words (by decide))
      simp [hpush, hplain])
    (by
      rw [hfilter]
      decide)
  rw [hkey, hfilter]
  decide

set_option maxRecDepth 4000 in
/-- Two pushes with different flags have one key, and are alike but for the flags. -/
theorem commandKey_determines_push : ∃ name₁ rest₁ name₂ rest₂,
    literalArguments (ofString "git push --quiet") false = some (name₁ :: rest₁) ∧
      literalArguments (ofString "git push --force") false = some (name₂ :: rest₂) ∧
        executableName posix name₁ = executableName posix name₂ ∧
          Alike posix (executableName posix name₁) rest₁ rest₂ := by
  have hquiet : (commandPermissionIdentity posix (ofString "git push --quiet")).commandKey =
      some (ofString "git push") :=
    commandKey_push (ofString "--quiet") (by decide +kernel) (by decide)
      (mem_words (by decide)) (not_executionOption (not_mem_words (by decide)))
  have hforce : (commandPermissionIdentity posix (ofString "git push --force")).commandKey =
      some (ofString "git push") :=
    commandKey_push (ofString "--force") (by decide +kernel) (by decide)
      (mem_words (by decide)) (not_executionOption (not_mem_words (by decide)))
  exact commandKey_determines hquiet hforce

end CommandPermissions

end CopilotFleet
