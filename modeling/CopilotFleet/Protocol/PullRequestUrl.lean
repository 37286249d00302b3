import CopilotFleet.Lib.Utf16

/-!
# The URL of a Pull Request

How a link a person pasted becomes the one canonical URL a pull request is
known by. The link has to be an exact HTTPS address without credentials, port,
query or fragment, and without a way to climb up its path. GitHub, also an
enterprise one, names an owner, a repository and a number; Azure DevOps names
an organization, a project, a repository and a number, and its two hosts come
out as one.

What the platform does with URLs is in `UrlRuntime`: taking one apart, and
percent signs. Where it throws, the parser does.

## Main definitions

* `UrlRuntime`: What the parser asks of the platform.
* `PrMaintenanceUrl`: A pull request, with its canonical URL.
* `parsePrMaintenanceUrl`: The pull request a link names, if it names one.
-/

namespace CopilotFleet

open Utf16

namespace PullRequestUrl

/-- The parts of a parsed URL that are looked at. -/
structure Url where
  protocol : Text
  username : Text := []
  password : Text := []
  hostname : Text
  port : Text := []
  pathname : Text
  search : Text := []
  hash : Text := []

structure UrlRuntime where
  /-- `new URL`; nothing where it throws. -/
  newUrl : Text → Option Url
  decodeURIComponent : Text → Option Text
  encodeURIComponent : Text → Text
  toLowerCase : Text → Text
  trim : Text → Text

def isLower (u : UInt16) : Bool := 0x61 ≤ u && u ≤ 0x7A

def isUpper (u : UInt16) : Bool := 0x41 ≤ u && u ≤ 0x5A

def isDigit (u : UInt16) : Bool := 0x30 ≤ u && u ≤ 0x39

/-- `[a-z0-9]` without regard to case. -/
def isAlphanumeric (u : UInt16) : Bool := isLower u || isUpper u || isDigit u

/-- A unit as a comparison without regard to case reads it. -/
def lowerUnit (u : UInt16) : UInt16 := if isUpper u then u + 0x20 else u

def lower (text : Text) : Text := text.map lowerUnit

/-- `/^[a-z0-9](?:[a-z0-9-]{0,61}[a-z0-9])?$/` -/
def hostLabel (label : Text) : Bool :=
  label.length ≤ 63 && (label.head?.any fun u => isLower u || isDigit u) &&
    (label.getLast?.any fun u => isLower u || isDigit u) &&
    label.all fun u => isLower u || isDigit u || u = 0x2D

/-- The schema of a host name, which folds its case and drops a final dot. -/
def hostname (runtime : UrlRuntime) (value : Text) : Option Text :=
  let trimmed := runtime.trim value
  if trimmed.length < 1 || 253 < trimmed.length then none
  else
    let lowered := runtime.toLowerCase trimmed
    let host := if lowered.getLast? = some 0x2E then lowered.dropLast else lowered
    if (host.splitOn 0x2E).all hostLabel then some host else none

/-- The schema of an Azure DevOps organization. -/
def organization (runtime : UrlRuntime) (value : Text) : Option Text :=
  if (value.head?.any isAlphanumeric) && value.length ≤ 50 &&
      (value.all fun u => isAlphanumeric u || u = 0x2D) then
    some (runtime.toLowerCase value)
  else none

/-- The schema of one project or repository name. -/
def pathSegment (value : Text) : Option Text :=
  if value.length < 1 || 256 < value.length then none
  else if value = [0x2E] || value = [0x2E, 0x2E] then none
  else if value.any fun u => u = 0x5C || u = 0x2F || u = 0x3F || u = 0x23 then none
  else if value.all fun u => 31 < u && u ≠ 127 then some value
  else none

/-- One step up a path, or none at all, in each of its spellings. -/
def dotSegments : List Text :=
  let dot : Text := [0x2E]
  let escaped : Text := [0x25, 0x32, 0x65]
  [dot, escaped, dot ++ dot, dot ++ escaped, escaped ++ dot, escaped ++ escaped]

/-- `/(?:^|\/)(?:\.|%2e){1,2}(?:\/|$)/i` -/
def climbs (value : Text) : Bool :=
  (value.splitOn 0x2F).any fun piece => dotSegments.contains (lower piece)

/-- The number a text of digits spells. -/
def digitsValue (digits : Text) : Nat := digits.foldl (fun n u => 10 * n + (u.toNat - 0x30)) 0

/-- `/^[1-9]\d*$/`, and within the numbers a provider gives out. -/
def prNumber (part : Text) : Option Nat :=
  if (part.head?.any fun u => isDigit u && u ≠ 0x30) && part.all isDigit &&
      digitsValue part ≤ 2147483647 then
    some (digitsValue part)
  else none

inductive PrMaintenanceUrl where
  | github (host owner repo : Text) (number : Nat) (url : Text)
  | azureDevops (organization project repo : Text) (number : Nat) (url : Text)
  deriving DecidableEq

def PrMaintenanceUrl.url : PrMaintenanceUrl → Text
  | github _ _ _ _ url => url
  | azureDevops _ _ _ _ url => url

def azureHost : Text := ofString "dev.azure.com"

def visualStudioSuffix : Text := ofString ".visualstudio.com"

/-- The organization an Azure DevOps address names, and the path below it. -/
def azureOrganization (runtime : UrlRuntime) (host : Text) (parts : List Text) :
    Option (Text × List Text) :=
  if host = azureHost then
    match parts with
    | [] => none
    | first :: rest => (organization runtime first).map fun org => (org, rest)
  else
    (organization runtime (host.take (host.length - visualStudioSuffix.length))).map fun org =>
      match parts with
      | [] => (org, [])
      | first :: rest =>
          if runtime.toLowerCase first = ofString "defaultcollection" then (org, rest)
          else (org, parts)

def parseAzure (runtime : UrlRuntime) (host : Text) (parts : List Text) (number : Nat) :
    Option PrMaintenanceUrl :=
  match azureOrganization runtime host parts with
  | some (org, [first, git, third, kind, _]) =>
      if git ≠ ofString "_git" || runtime.toLowerCase kind ≠ ofString "pullrequest" then none
      else
        match pathSegment first, pathSegment third with
        | some project, some repo =>
            some (.azureDevops org project repo number (ofString "https://dev.azure.com/" ++ org ++
              ofString "/" ++ runtime.encodeURIComponent project ++ ofString "/_git/" ++
              runtime.encodeURIComponent repo ++ ofString "/pullrequest/" ++
              ofString (toString number)))
        | _, _ => none
  | _ => none

def parseGithub (runtime : UrlRuntime) (host : Text) (parts : List Text) (number : Nat) :
    Option PrMaintenanceUrl :=
  match parts with
  | [first, second, pull, _] =>
      let plain := fun part : Text => part ≠ [] &&
        part.all fun u => isAlphanumeric u || u = 0x5F || u = 0x2E || u = 0x2D
      if pull ≠ ofString "pull" || !plain first || !plain second then none
      else
        match pathSegment first, pathSegment second with
        | some owner, some repo =>
            let owner := runtime.toLowerCase owner
            let repo := runtime.toLowerCase repo
            some (.github host owner repo number (ofString "https://" ++ host ++ ofString "/" ++
              owner ++ ofString "/" ++ repo ++ ofString "/pull/" ++ ofString (toString number)))
        | _, _ => none
  | _ => none

/-- The names along a path, decoded. -/
def pathParts (runtime : UrlRuntime) (pathname : Text) : Option (List Text) :=
  let path := if pathname.getLast? = some 0x2F then pathname.dropLast else pathname
  ((path.splitOn 0x2F).drop 1).mapM fun part =>
    (runtime.decodeURIComponent part).bind pathSegment

def parsePrMaintenanceUrl (runtime : UrlRuntime) (value : Text) : Option PrMaintenanceUrl :=
  if 4096 < value.length || value.any (fun u => isSpace u || u = 0x5C) then none
  else
    match runtime.newUrl value with
    | none => none
    | some url =>
        if url.protocol ≠ ofString "https:" || url.username ≠ [] || url.password ≠ [] ||
            url.port ≠ [] || url.search ≠ [] || url.hash ≠ [] || climbs value then none
        else
          match hostname runtime url.hostname, pathParts runtime url.pathname with
          | some host, some parts =>
              match (parts.getLast?).bind prNumber with
              | none => none
              | some number =>
                  if host = azureHost || visualStudioSuffix.isSuffixOf host then
                    parseAzure runtime host parts number
                  else parseGithub runtime host parts number
          | _, _ => none

end PullRequestUrl

end CopilotFleet
