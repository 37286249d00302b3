import CopilotFleet.Lib.Dealt
import CopilotFleet.Lib.Refusal
import CopilotFleet.Node.CommandIdentity
import CopilotFleet.Node.CommandWildcards
import Mathlib.Data.List.Find

/-!
# Saved Command Permissions

A Node keeps the rules its owner saved, each with an id, and with a key that
may pin an executable. The owner sees and edits them as entries, which have
neither: a command or, of rules nobody can read any more, a key, with a folder,
a way of matching and a Host where it is another one. What is saved again is
matched back to the rules by what an entry says (`entryKey`), each rule being
taken once, and only an entry that matches none becomes a new rule.

Saving entries as they were shown therefore gives the rules back, and leaving
some out gives those that are left, unless several rules are shown alike: of
these the first are kept, whichever were meant (`compile_entries`).

## Main definitions

* `Rule`, `Entry`: A saved permission, and how it is shown.
* `validateCommandPermissionRules`: Rules as they are saved.
* `commandPermissionEntries`: Rules as they are shown.
* `compileCommandPermissionEntries`: Entries as they are saved.
* `Acceptable`: An entry that can be saved at all.

## Theorems

* `compileLoop_deal`: Entries that are known take their rules, one by one.
* `compile_entries`: What comes of saving some of the entries that were shown.
-/

namespace CopilotFleet

namespace CommandPermissions

open Utf16 Dealt Refusal

/-! ### Rules and entries -/

inductive MatchMode where
  | command
  | exact
  | pattern
  deriving DecidableEq

structure Rule where
  id : Text
  commandKey : Text
  command : Option Text := none
  mode : Option MatchMode := none
  path : Text
  hostId : Option Text := none
  builtin : Bool := false
  deriving DecidableEq

/-- A rule as its owner sees it. -/
inductive Entry where
  | command (command path : Text) (mode : Option MatchMode) (hostId : Option Text)
  | legacy (legacyKey path : Text) (hostId : Option Text)
  deriving DecidableEq

def Entry.path : Entry → Text
  | .command _ path _ _ => path
  | .legacy _ path _ => path

/-- Why rules or entries cannot be saved. -/
inductive RuleError where
  /-- What a schema refuses. -/
  | schema
  | message (text : String)
  deriving DecidableEq

/-! ### Schemas -/

def scriptBytes : Nat := 16 * 1024

def validCommand (command : Text) : Bool :=
  1 ≤ command.length && command.length ≤ scriptBytes && !command.contains 0 &&
    (toUtf8 command).length ≤ scriptBytes

def validId (id : Text) : Bool := 1 ≤ id.length && id.length ≤ 200

def validPathLength (path : Text) : Bool := 1 ≤ path.length && path.length ≤ 32768

/-- `CommandPermissionEntrySchema`. -/
def Entry.valid : Entry → Bool
  | .command text path _ hostId =>
      validCommand text && (validPathLength path && !path.contains 0) && hostId.all validId
  | .legacy legacyKey path hostId =>
      validId legacyKey && (validPathLength path && !path.contains 0) && hostId.all validId

/-- `CommandPermissionRuleSchema`, which has no objection to a NUL in a folder. -/
def parseRule (rule : Rule) : Except RuleError Rule :=
  let parsed := { rule with commandKey := Split.trim isSpace rule.commandKey }
  if validId parsed.id && validId parsed.commandKey && parsed.command.all validCommand &&
      validPathLength parsed.path && parsed.hostId.all validId then .ok parsed
  else .error .schema

/-! ### Keys -/

/-- What a Node reads from its disk. -/
structure Executable where
  path : Text
  fingerprint : Text
  native : Option Bool := none

structure Surroundings where
  /-- The physical folder, or why there is none. -/
  canonicalPath : Text → Except String Text
  /-- The program a name stands for in a folder, or the error as a text. -/
  resolveExecutable : Text → Text → Except Text Executable
  /-- `extname` of `node:path`. -/
  extname : Text → Text

variable (platform : Platform) (surroundings : Surroundings)

def EXACT_SCRIPT_PERMISSION_PREFIX : Text := ofString "exact-script:sha256:"

def isExactScriptPermissionKey (value : Text) : Bool :=
  EXACT_SCRIPT_PERMISSION_PREFIX.isPrefixOf value &&
    isDigest (value.drop EXACT_SCRIPT_PERMISSION_PREFIX.length)

def patternPrefix : Text := ofString "pattern:sha256:"

def pinMark : Text := ofString " @sha256:"

def isLineEnd (u : UInt16) : Bool := u = 0x0A || u = 0x0D || u = 0x2028 || u = 0x2029

/-- `EXECUTABLE_PIN.exec(key)?.[1]`: what stands before the pin of an executable. -/
def existingPin (key : Text) : Option Text :=
  let front := key.take (key.length - 64)
  let name := front.take (front.length - pinMark.length)
  if 64 ≤ key.length && isDigest (key.drop (key.length - 64)) && pinMark.isSuffixOf front &&
      !name.any isLineEnd then some name
  else none

/-- `key.replace(EXECUTABLE_PIN, "$1")`. -/
def withoutPin (key : Text) : Text := (existingPin key).getD key

/-- `Buffer.from(text, "utf16le")`. -/
def utf16le (text : Text) : List UInt8 :=
  text.flatMap fun u : UInt16 => [u.toUInt8, (u >>> 8).toUInt8]

def permissionPath (path : Text) : Text :=
  if platform.win32 then platform.toLowerCase (platform.normalize path)
  else platform.normalize path

/-- A segment of the path is `..`. -/
def climbs (path : Text) : Bool := (path.splitOnP isSlash).contains (ofString "..")

/-- `path.includes("*") && path.split(/[\\/]/).includes("..")`. -/
def traverses (path : Text) : Bool := path.contains star && climbs path

def exactScriptIdentity (command : Text) : Except RuleError Identity :=
  if validCommand command then
    .ok {
      commandKey := some (EXACT_SCRIPT_PERMISSION_PREFIX ++ platform.sha256
        (toUtf8 (ofString "fleet-exact-script-v1") ++ (0 :: utf16le command)))
      explanation := ofString "Only the exact full script in this folder is remembered. Any text change, including flags or whitespace, asks again. Called tools, files, and environment may change between runs; this is not executable pinning or a sandbox." }
  else .error .schema

/-- `/^npm(?:\.(?:exe|com|cmd|ps1))?$/.test(name)`. -/
def isNpmName (name : Text) : Bool := (words "npm npm.exe npm.com npm.cmd npm.ps1").contains name

def thrown (message : String) : Text := ofString "Error: " ++ ofString message

/-- The executable a key is for, pinned by its content, or why it is not. -/
def pinnedKey (key cwd : Text) : Except Text (Text × Executable) := do
  let name := key.takeWhile (· ≠ 0x20)
  let executable ← surroundings.resolveExecutable name cwd
  if !platform.isAbsolute executable.path || !isDigest executable.fingerprint then
    throw (thrown "Resolver did not supply a concrete executable identity.")
  let native := executable.native.getD
    ((words ".exe .com").contains (platform.toLowerCase (surroundings.extname executable.path)))
  if !isNpmName name && !native then
    throw (thrown "Script launchers are Once-only unless the known npm task identity is explicit.")
  let commandKey := key ++ (pinMark ++ executable.fingerprint)
  if 200 < commandKey.length then throw (thrown "Pinned command identity exceeds policy bounds.")
  return (commandKey, executable)

def concreteCommandIdentity (identity : Identity) (cwd : Text) : Identity :=
  match identity.commandKey with
  | none => identity
  | some key =>
      if isDirectoryChange platform key then identity
      else
        match pinnedKey platform surroundings key cwd with
        | .ok (commandKey, executable) =>
            { commandKey := some commandKey
              explanation := (identity.explanation ++ (ofString " Executable: " ++
                (executable.path ++ (ofString ". Path, file identity and content are pinned by " ++
                  (executable.fingerprint ++ ofString "."))))).take 4000 }
        | .error error =>
            { explanation := ofString "Executable resolution is uncertain: " ++ (error.take 1000 ++
                ofString ". Only explicit Once is supported; policy fails closed rather than trusting a name or guessing resolution.") }

def resolvedCommandIdentity (command cwd : Text) : Except RuleError Identity :=
  if !validCommand command then .error .schema
  else
    let identity := concreteCommandIdentity platform surroundings
      (commandPermissionIdentity platform command) cwd
    -- The key of an identity is never empty, so to have one is to have a key.
    if identity.commandKey.isSome then .ok identity else exactScriptIdentity platform command

/-! ### Validation -/

/-- The folder of a rule, as it is saved. -/
def rulePath (path : Text) : Except RuleError Text :=
  if path = [star] then .ok path
  else if !platform.isAbsolute path || isNetworkPath path then
    .error (.message "Rule paths must be absolute local folders or '*' patterns.")
  else if path.contains star then
    if climbs path then .error (.message "Wildcard paths cannot contain '..' traversal.")
    else .ok (permissionPath platform path)
  else
    match surroundings.canonicalPath path with
    | .error text => .error (.message text)
    | .ok canonical =>
        if isNetworkPath canonical then
          .error (.message "Network directory permission rules are unsupported.")
        else .ok (permissionPath platform canonical)

/-- `DEFAULT_COMMAND_PERMISSION_RULES`, by their ids and keys. -/
def defaultRules : List (Text × Text) :=
  (ofString "builtin-cd", ofString "cd") ::
    (if platform.win32 then [(ofString "builtin-set-location", ofString "set-location")] else [])

def isDefault (rule : Rule) : Bool :=
  (defaultRules platform).any fun builtin =>
    builtin.1 = rule.id && builtin.2 = rule.commandKey && rule.path = [star] &&
      !rule.hostId.any (· ≠ [])

/-- A builtin rule an older Fleet saved that this platform does not define. -/
def obsoleteBuiltin (rule : Rule) : Bool :=
  rule.builtin && rule.id = ofString "builtin-set-location" &&
    rule.commandKey = ofString "set-location" &&
      !(defaultRules platform).any fun builtin => builtin.1 = rule.id

def validateBuiltin (rule : Rule) : Except RuleError Rule :=
  if isDefault platform rule then .ok { rule with command := some rule.commandKey }
  else .error (.message "Only the literal cd and Set-Location builtin rules are supported.")

def validatePattern (rule : Rule) : Except RuleError Rule :=
  match rule.command.bind fun command => literalInvocation platform command true with
  | none => .error (.message "Wildcard rules must name a simple command pattern. Use match: 'exact' for compound scripts.")
  | some command => do
      let path ← rulePath platform surroundings rule.path
      return { rule with
        command := some command
        path
        commandKey := patternPrefix ++ platform.sha256 (utf16le command) }

def validateExact (rule : Rule) (command : Text) : Except RuleError Rule := do
  let path ← rulePath platform surroundings rule.path
  let identity ← exactScriptIdentity platform command
  return { rule with path, commandKey := identity.commandKey.getD [] }

/-- What is looked at of an invocation: a change of directory is one to somewhere. -/
def placed (invocation : Text) : Text :=
  if isDirectoryChange platform invocation then invocation ++ ofString " ." else invocation

/-- A command rule for folders by a pattern. -/
def validateFamily (rule : Rule) (pin : Option Text) (invocation : Text) :
    Except RuleError Rule := do
  let path ← rulePath platform surroundings rule.path
  let identity := commandPermissionIdentity platform (placed platform invocation)
  match pin with
  | some name =>
      if identity.commandKey ≠ some name then
        throw (.message "Rules require a normalized command identity.")
      return { rule with command := some name, path }
  | none =>
      match identity.commandKey with
      | some key => return { rule with command := some key, commandKey := key, path }
      | none =>
          let exact ← exactScriptIdentity platform invocation
          return { rule with
            command := some invocation
            commandKey := exact.commandKey.getD []
            mode := some .exact
            path }

/-- A rule for one folder. -/
def validateFolder (rule : Rule) (pin : Option Text) (invocation : Text) :
    Except RuleError Rule := do
  if !platform.isAbsolute rule.path || isNetworkPath rule.path || rule.path.contains star then
    throw (.message "Use match: 'pattern' or 'exact' for wildcard folders.")
  if isExactScriptPermissionKey rule.commandKey then
    return { rule with path := permissionPath platform rule.path }
  match pin with
  | some name =>
      if (commandPermissionIdentity platform (placed platform invocation)).commandKey ≠ some name then
        throw (.message "Rules require a normalized command identity.")
      return { rule with command := some name, path := permissionPath platform rule.path }
  | none =>
      match surroundings.canonicalPath rule.path with
      | .error text => throw (.message text)
      | .ok path =>
          if isNetworkPath path then
            throw (.message "Network directory permission rules are unsupported.")
          let identity ← resolvedCommandIdentity platform surroundings (placed platform invocation) path
          let commandKey := identity.commandKey.getD []
          let exact := isExactScriptPermissionKey commandKey
          parseRule { rule with
            commandKey
            command := some (if exact then invocation else withoutPin commandKey)
            mode := some (if exact then .exact else .command)
            path := permissionPath platform path }

/-- One rule, once its id is known to be its own. -/
def validateRule (rule : Rule) : Except RuleError Rule :=
  if rule.builtin then validateBuiltin platform rule
  else if rule.mode = some .pattern then validatePattern platform surroundings rule
  else
    match rule.mode, rule.command with
    | some .exact, some command => validateExact platform surroundings rule command
    | _, _ =>
        let pin := existingPin rule.commandKey
        let invocation := rule.command.getD (pin.getD rule.commandKey)
        if rule.path.contains star && rule.mode = some .command && rule.command.isSome then
          validateFamily platform surroundings rule pin invocation
        else validateFolder platform surroundings rule pin invocation

/-- The rules one by one, with the ids that were met before. -/
def validateAll : List Text → List Rule → Except RuleError (List Rule)
  | _, [] => .ok []
  | ids, input :: rest => do
      let rule ← parseRule input
      if ids.contains rule.id then
        throw (.message "Command permission rule IDs must be unique.")
      let saved ← validateRule platform surroundings rule
      let others ← validateAll (rule.id :: ids) rest
      return saved :: others

/-- Of several rules that are refused the first is reported. -/
def validateCommandPermissionRules (input : List Rule) : Except RuleError (List Rule) :=
  validateAll platform surroundings [] (input.filter fun rule => !obsoleteBuiltin platform rule)

/-! ### Editing -/

def readableCommand (rule : Rule) : Option Text :=
  match rule.command with
  | some command => some command
  | none =>
      if isExactScriptPermissionKey rule.commandKey || patternPrefix.isPrefixOf rule.commandKey then
        none
      else some (withoutPin rule.commandKey)

/-- The Host of a rule, where it is said. -/
def foreignHost (hostId : Option Text) (rule : Rule) : Option Text :=
  rule.hostId.filter fun host => host ≠ [] && some host ≠ hostId

/-- How a rule is shown on the current Host. -/
def entryOf (hostId : Option Text) (rule : Rule) : Entry :=
  match readableCommand rule with
  | none => .legacy rule.commandKey rule.path (foreignHost hostId rule)
  | some command =>
      .command command rule.path (rule.mode.filter (· ≠ .command)) (foreignHost hostId rule)

def commandPermissionEntries (rules : List Rule) (hostId : Option Text) : List Entry :=
  rules.map (entryOf hostId)

/-- How an entry matches, where it does not say so. -/
def modeOf (command : Text) (mode : Option MatchMode) : MatchMode :=
  mode.getD (if command.contains star then .pattern else .command)

/-- What an entry is told apart by; of a rule nobody can read there is no mode. -/
structure EntryKey where
  text : Text
  path : Text
  mode : Option MatchMode
  hostId : Option Text
  deriving DecidableEq

def entryKey (hostId : Option Text) : Entry → EntryKey
  | .command command path mode host =>
      { text := command
        path := permissionPath platform path
        mode := some (modeOf command mode)
        hostId := host.or hostId }
  | .legacy legacyKey path host =>
      { text := legacyKey
        path := permissionPath platform path
        mode := none
        hostId := host.or hostId }

/-- A rule for an entry that is none of the rules there are. -/
def newRule (hostId : Option Text) (id : Text) : Entry → Except RuleError Rule
  | .legacy _ _ _ => .error (.message "That legacy rule cannot be recovered. Reload it, or replace it with its actual command.")
  | .command command path mode host =>
      match (host.or hostId).filter (· ≠ []) with
      | none => .error (.message "Enroll with a current Host before adding persistent command rules.")
      | some boundHost => do
          let rules ← validateCommandPermissionRules platform surroundings [{
            id
            commandKey := ofString "pending"
            command := some command
            path
            mode := some (modeOf command mode)
            hostId := some boundHost
            builtin := false }]
          match rules with
          | rule :: _ => return rule
          | [] => throw .schema

/-- The first rule shown as an entry that was not taken yet. -/
def findRule (hostId : Option Text) (current : List Rule) (used : List Nat) (entry : Entry) :
    Option Nat :=
  (List.range current.length).find? fun i => !used.contains i &&
    ((commandPermissionEntries current hostId)[i]?).any fun prior =>
      entryKey platform hostId prior = entryKey platform hostId entry

/-- The entries one by one, with the rules that were taken; a new rule draws an id. -/
def compileLoop (hostId : Option Text) (randomUUID : Nat → Text) (current : List Rule) :
    List Nat → List Entry → Except RuleError (List Rule)
  | _, [] => .ok []
  | used, entry :: rest => do
      if !entry.valid then throw .schema
      if traverses entry.path then
        throw (.message "Wildcard paths cannot contain '..' traversal.")
      match findRule platform hostId current used entry with
      | some index =>
          let others ← compileLoop hostId randomUUID current (index :: used) rest
          return (current[index]?).toList ++ others
      | none =>
          let rule ← newRule platform surroundings hostId (randomUUID rest.length) entry
          let others ← compileLoop hostId randomUUID current used rest
          return rule :: others

def compileCommandPermissionEntries (randomUUID : Nat → Text) (current : List Rule)
    (input : List Entry) (hostId : Option Text) : Except RuleError (List Rule) :=
  compileLoop platform surroundings hostId randomUUID current [] input

/-! ### What comes back -/

/-- What is checked of an entry before it is looked for. -/
def Acceptable (entry : Entry) : Prop := entry.valid = true ∧ traverses entry.path = false

/-- What a rule is told apart by once it is shown. -/
def ruleKey (hostId : Option Text) (rule : Rule) : EntryKey :=
  entryKey platform hostId (entryOf hostId rule)

/-- The rules that were not taken, with their places. -/
def untaken (current : List Rule) (used : List Nat) : List (Rule × Nat) :=
  current.zipIdx.filter fun placed => !used.contains placed.2

variable {platform surroundings} {hostId : Option Text} {current : List Rule} {used : List Nat}

/-- The search goes through the rules that were not taken. -/
theorem findRule_eq (entry : Entry) :
    findRule platform hostId current used entry =
      ((untaken current used).find? fun placed =>
        ruleKey platform hostId placed.1 = entryKey platform hostId entry).map Prod.snd := by
  have hrange : List.range current.length = current.zipIdx.map Prod.snd := by
    rw [List.zipIdx_map_snd, List.range_eq_range']
  unfold findRule untaken
  rw [hrange, List.find?_map, List.find?_filter]
  congr 1
  refine List.find?_congr fun placed hplaced => ?_
  have hget := List.mem_zipIdx_iff_getElem?.mp hplaced
  have hentry : (commandPermissionEntries current hostId)[placed.2]? =
      some (entryOf hostId placed.1) := by
    rw [commandPermissionEntries, List.getElem?_map, hget]
    rfl
  rw [Function.comp_apply, hentry, Option.any_some, Bool.eq_iff_iff, Bool.and_eq_true,
    decide_eq_true_iff]
  constructor
  · exact fun h => decide_eq_true ⟨h.1, decide_eq_true h.2⟩
  · intro h
    have hboth := of_decide_eq_true h
    exact ⟨hboth.1, of_decide_eq_true hboth.2⟩

/-- A rule that is taken is not among those that are left. -/
theorem untaken_eraseP {p : Rule × Nat → Bool} {rule : Rule} {index : Nat}
    (h : (untaken current used).find? p = some (rule, index)) :
    (untaken current used).eraseP p = untaken current (index :: used) ∧
      current[index]? = some rule := by
  have hnodup : ((untaken current used).map Prod.snd).Nodup := by
    refine List.Nodup.sublist (List.filter_sublist.map Prod.snd) ?_
    rw [List.zipIdx_map_snd]
    exact List.nodup_range'
  have hmem : (rule, index) ∈ current.zipIdx := (List.mem_filter.mp (List.mem_of_find?_eq_some h)).1
  refine ⟨?_, List.mem_zipIdx_iff_getElem?.mp hmem⟩
  have hfilter : untaken current (index :: used) =
      (untaken current used).filter fun placed => placed.2 ≠ index := by
    unfold untaken
    rw [List.filter_filter]
    refine List.filter_congr fun placed _ => ?_
    rw [List.contains_cons, Bool.not_or]
    congr 1
    by_cases heq : placed.2 = index
    · simp [heq]
    · simp [heq]
  rw [hfilter]
  rw [List.find?_eq_some_iff_append] at h
  rcases h with ⟨hp, before, after, hsplit, hbefore⟩
  rw [hsplit] at hnodup ⊢
  rw [List.eraseP_append_right _ (fun placed hplaced => by simpa using hbefore placed hplaced),
    List.eraseP_cons_of_pos hp, List.filter_append, List.filter_cons_of_neg (by simp)]
  rw [List.map_append, List.map_cons, List.nodup_append, List.nodup_cons] at hnodup
  rcases hnodup with ⟨_, ⟨hafter, _⟩, hapart⟩
  congr 1
  · refine (List.filter_eq_self.mpr fun placed hplaced => ?_).symm
    exact decide_eq_true (hapart placed.2 (List.mem_map_of_mem hplaced) index List.mem_cons_self)
  · refine (List.filter_eq_self.mpr fun placed hplaced => ?_).symm
    refine decide_eq_true fun heq => hafter ?_
    have hmem := List.mem_map_of_mem (f := Prod.snd) hplaced
    rw [heq] at hmem
    exact hmem

/-- Entries that are known take their rules one by one, the first that is left each time. -/
theorem compileLoop_deal {randomUUID : Nat → Text} {entries : List Entry}
    (hacceptable : ∀ entry ∈ entries, Acceptable entry) {dealt : List (Rule × Nat)}
    (hdeal : deal (fun placed : Rule × Nat => ruleKey platform hostId placed.1)
      (entries.map (entryKey platform hostId)) (untaken current used) = some dealt) :
    compileLoop platform surroundings hostId randomUUID current used entries =
      .ok (dealt.map Prod.fst) := by
  induction entries generalizing used dealt with
  | nil =>
      cases hdeal
      rfl
  | cons entry rest ih =>
      have hentry := hacceptable entry List.mem_cons_self
      rw [List.map_cons, deal] at hdeal
      cases hfind : (untaken current used).find? fun placed : Rule × Nat =>
          ruleKey platform hostId placed.1 = entryKey platform hostId entry with
      | none =>
          rw [hfind] at hdeal
          cases hdeal
      | some placed =>
          rcases placed with ⟨rule, index⟩
          rw [hfind] at hdeal
          rcases untaken_eraseP hfind with ⟨herase, hget⟩
          rw [herase] at hdeal
          rcases Option.map_eq_some_iff.mp hdeal with ⟨dealt', hdeal', rfl⟩
          have hrest := ih (fun other hother => hacceptable other (List.mem_cons_of_mem _ hother))
            hdeal'
          rw [compileLoop, findRule_eq, hfind, hentry.1, hentry.2]
          dsimp only [Option.map_some]
          rw [hrest, hget]
          rfl

/-- An entry that is not acceptable ends the loop. -/
theorem acceptable_of_compileLoop {randomUUID : Nat → Text} {entries : List Entry}
    {rules : List Rule}
    (h : compileLoop platform surroundings hostId randomUUID current used entries = .ok rules) :
    ∀ entry ∈ entries, Acceptable entry := by
  induction entries generalizing used rules with
  | nil => exact fun entry hentry => absurd hentry List.not_mem_nil
  | cons entry rest ih =>
      rw [compileLoop] at h
      rcases unless_ok h with ⟨hvalid, h⟩
      rcases unless_ok h with ⟨htraverses, h⟩
      have hothers : ∃ used' others, compileLoop platform surroundings hostId randomUUID current
          used' rest = .ok others := by
        split at h
        · rcases bind_ok h with ⟨others, hothers, _⟩
          exact ⟨_, others, hothers⟩
        · rcases bind_ok h with ⟨_, _, h⟩
          rcases bind_ok h with ⟨others, hothers, _⟩
          exact ⟨_, others, hothers⟩
      rcases hothers with ⟨used', others, hothers⟩
      intro other hother
      rcases List.mem_cons.mp hother with rfl | hother
      · rw [Bool.not_eq_true', Bool.not_eq_false] at hvalid
        rw [Bool.not_eq_true] at htraverses
        exact ⟨hvalid, htraverses⟩
      · exact ih hothers other hother

/-- Some of the entries that were shown are saved again. What comes back are rules that are shown
    as these entries, of those that are shown alike the first ones; so it is the rules the entries
    were of exactly where of each shown alike the first ones were kept. It comes back exactly
    where every entry passes what is checked of an entry. -/
theorem compile_entries (platform : Platform) (surroundings : Surroundings)
    (randomUUID : Nat → Text) (hostId : Option Text) {rules kept : List Rule}
    (hkept : kept.Sublist rules) :
    (compileCommandPermissionEntries platform surroundings randomUUID rules
        (commandPermissionEntries rules hostId) hostId = .ok rules ↔
      ∀ rule ∈ rules, Acceptable (entryOf hostId rule)) ∧
    ((∀ rule ∈ kept, Acceptable (entryOf hostId rule)) →
      ∃ result, compileCommandPermissionEntries platform surroundings randomUUID rules
          (commandPermissionEntries kept hostId) hostId = .ok result ∧
        result.map (ruleKey platform hostId) = kept.map (ruleKey platform hostId) ∧
        (∀ key, having (ruleKey platform hostId) key result <+:
          having (ruleKey platform hostId) key rules) ∧
        (result = kept ↔ ∀ key, having (ruleKey platform hostId) key kept <+:
          having (ruleKey platform hostId) key rules)) := by
  have hsaved : ∀ {some : List Rule}, some.Sublist rules →
      (∀ rule ∈ some, Acceptable (entryOf hostId rule)) →
      ∃ result, compileCommandPermissionEntries platform surroundings randomUUID rules
          (commandPermissionEntries some hostId) hostId = .ok result ∧
        result.map (ruleKey platform hostId) = some.map (ruleKey platform hostId) ∧
        (∀ key, having (ruleKey platform hostId) key result <+:
          having (ruleKey platform hostId) key rules) ∧
        (result = some ↔ ∀ key, having (ruleKey platform hostId) key some <+:
          having (ruleKey platform hostId) key rules) := by
    intro some hsome hacceptable
    rcases @deal_sublist_iff _ _ _ (ruleKey platform hostId) _ _ hsome with
      ⟨result, hdeal, hkeys, hfirst, hiff⟩
    refine ⟨result, ?_, hkeys, hfirst, hiff⟩
    -- Nothing is taken at first: every rule can still be dealt, with its place in the list.
    have huntaken : rules = (untaken rules []).map Prod.fst := by
      have hall : untaken rules [] = rules.zipIdx := List.filter_eq_self.mpr fun _ _ => rfl
      rw [hall, List.zipIdx_map_fst]
    rw [huntaken, deal_map, Option.map_eq_some_iff] at hdeal
    rcases hdeal with ⟨dealt, hdeal, rfl⟩
    have hentries : (commandPermissionEntries some hostId).map (entryKey platform hostId) =
        some.map (ruleKey platform hostId) := List.map_map
    refine compileLoop_deal (fun entry hentry => ?_) ?_
    · rcases List.mem_map.mp hentry with ⟨rule, hrule, rfl⟩
      exact hacceptable rule hrule
    · rw [hentries]
      exact hdeal
  refine ⟨⟨fun h rule hrule => ?_, fun h => ?_⟩, hsaved hkept⟩
  · exact acceptable_of_compileLoop h _ (List.mem_map_of_mem hrule)
  · rcases hsaved (List.Sublist.refl rules) h with ⟨result, hresult, _, _, hiff⟩
    rw [hresult, hiff.mpr fun key => List.prefix_refl _]

/-! ### Two rules shown alike -/

/-- Nothing of a disk is asked for by a rule for folders by a pattern. -/
def nowhere : Surroundings where
  canonicalPath _ := .error "No such folder."
  resolveExecutable _ _ := .error (thrown "No such program.")
  extname _ := []

def hostOne : Text := ofString "host-1"

/-- Going anywhere, on one Host or on any. -/
def anywhere (id : String) (hostId : Option Text) : Rule where
  id := ofString id
  commandKey := ofString "cd"
  command := some (ofString "cd")
  mode := some .command
  path := [star]
  hostId

/-- A folder that is a rule's and cannot be an entry's. -/
def unnamable : Rule :=
  { anywhere "c" (some hostOne) with path := ofString "/work/" ++ [0, star] }

/-- The rule that says no Host is kept where the other one was, and a rule for a folder with a
    NUL in its name cannot be saved with the entries it is shown with. -/
theorem shown_alike :
    (validateCommandPermissionRules posix nowhere
        [anywhere "a" none, anywhere "b" (some hostOne)]).toOption =
      some [anywhere "a" none, anywhere "b" (some hostOne)] ∧
    [anywhere "b" (some hostOne)].Sublist [anywhere "a" none, anywhere "b" (some hostOne)] ∧
    (compileCommandPermissionEntries posix nowhere (fun _ => [])
        [anywhere "a" none, anywhere "b" (some hostOne)]
        (commandPermissionEntries [anywhere "b" (some hostOne)] (some hostOne))
        (some hostOne)).toOption = some [anywhere "a" none] ∧
    [anywhere "a" none] ≠ [anywhere "b" (some hostOne)] ∧
    (validateCommandPermissionRules posix nowhere [unnamable]).toOption = some [unnamable] ∧
    (compileCommandPermissionEntries posix nowhere (fun _ => []) [unnamable]
        (commandPermissionEntries [unnamable] (some hostOne)) (some hostOne)).toOption = none := by
  refine ⟨?_, ?_, ?_, ?_, ?_, ?_⟩ <;> decide +kernel

/-- Of two rules that are shown alike the first comes back where the second was taken out. -/
theorem compile_entries_first :
    [anywhere "a" none].Sublist [anywhere "a" none, anywhere "b" (some hostOne)] ∧
      compileCommandPermissionEntries posix nowhere (fun _ => [])
          [anywhere "a" none, anywhere "b" (some hostOne)]
          (commandPermissionEntries [anywhere "a" none] (some hostOne)) (some hostOne) =
        .ok [anywhere "a" none] := by
  have hkept : [anywhere "a" none].Sublist [anywhere "a" none, anywhere "b" (some hostOne)] := by
    decide +kernel
  have hacceptable : ∀ rule ∈ [anywhere "a" none], Acceptable (entryOf (some hostOne) rule) := by
    unfold Acceptable
    decide +kernel
  rcases (compile_entries posix nowhere (fun _ => []) (some hostOne) hkept).2 hacceptable with
    ⟨result, hresult, _, _, hsame⟩
  have hfirst : [anywhere "a" none] <+: [anywhere "a" none, anywhere "b" (some hostOne)] :=
    ⟨_, rfl⟩
  rw [hsame.mpr fun key => hfirst.filter _] at hresult
  exact ⟨hkept, hresult⟩

end CommandPermissions

end CopilotFleet
