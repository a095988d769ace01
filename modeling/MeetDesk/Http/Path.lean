import MeetDesk.Fault
import MeetDesk.Json.Scanner
import MeetDesk.Query.Plan
import MeetDesk.Text.Stray

/-!
# Paths

The target of a request names a resource by its path: a query and a fragment behind it and an
authority before it are no part of it. Dot segments are resolved first; then what is percent-encoded
is decoded to octets, which are read as UTF-8.
-/

namespace MeetDesk.Http

/-- The most codes of a target. -/
def maxTargetSize : Nat := 65536

/-- The place of the first code in a target that no target may hold, and the code. -/
def unprintable? (target : List Nat) : Option (Nat × Nat) :=
  let index := target.findIdx fun n => n < 0x20 || n == 0x7F
  target[index]?.map fun n => (index, n)

/-- Why a target cannot be asked for, if that is so. Its characters are encoded one by one, so half
of a pair is reported without its place. -/
def targetFault? (target : String) : Option Fault :=
  let codes := Text.codes target.toList
  if maxTargetSize < codes.length then some (.ordinary "InvalidURL" "URL too long")
  else
    match unprintable? codes, Text.unencodable? target with
    | some (index, n), _ =>
      some (.ordinary "InvalidURL" ("Invalid non-printable ASCII character in URL, " ++
        Text.quoted (String.singleton (Char.ofNat n)) ++ " at position " ++ toString index ++ "."))
    | none, some run =>
      some (.ordinary "UnicodeEncodeError" (Text.HalfRun.message ⟨0, run.halves.take 1⟩))
    | none, none => none

/-- Octets behind percent signs; a percent sign without two hexadecimal digits stands for itself. -/
def percentDecode : List UInt8 → List UInt8
  | [] => []
  | [a] => [a]
  | [a, b] => [a, b]
  | p :: a :: b :: rest =>
    match Json.hexValue? (Char.ofNat a.toNat), Json.hexValue? (Char.ofNat b.toNat) with
    | some high, some low =>
      if p = 0x25 then UInt8.ofNat (16 * high + low) :: percentDecode rest
      else p :: percentDecode (a :: b :: rest)
    | _, _ => p :: percentDecode (a :: b :: rest)

/-- The path of a target, with one slash at its start. -/
def targetPath (target : List Char) : List Char :=
  let bare := target.takeWhile fun c => c != '?' && c != '#'
  let path := match bare with
    | '/' :: '/' :: rest => rest.dropWhile (· != '/')
    | path => path
  '/' :: path.dropWhile (· == '/')

/-- The segments that are left once a dot is taken for the place where one is, and two dots for a step
back. Nothing is left of the start of a path by stepping back. -/
def resolveDots (segments : List (List Char)) : List (List Char) :=
  segments.foldl (fun done segment =>
    if segment = ['.'] then done
    else if segment = ['.', '.'] then (if done.length ≤ 1 then done else done.dropLast)
    else done ++ [segment]) []

/-- The decoded path of a request. -/
def decodePath (target : String) : List Char :=
  let segments := resolveDots ((targetPath target.toList).splitOnP (· == '/'))
  let path := List.intercalate ['/'] segments
  Text.ofChars (Text.decodeUtf8 (percentDecode ((Text.encodeUtf8? path).getD [])))

/-- What a request can ask for. -/
inductive Resource where
  /-- Whether the application is well. -/
  | health
  /-- The runs of the desk. -/
  | runs
  /-- A thread of the archive. -/
  | thread (name : String)
  /-- The description of the interface, for people or for programs. -/
  | manual
  deriving DecidableEq, Repr

/-- The paths of the description of the interface. -/
def manualPaths : List String := ["/docs", "/docs/oauth2-redirect", "/openapi.json", "/redoc"]

/-- The resource at a path. A line feed at the end of a fixed path is let pass. -/
def resourceAt? (path : List Char) : Option Resource :=
  let fixed := String.ofList (Plan.dropFinalLineFeed path)
  if fixed == "/health" then some .health
  else if fixed == "/api/runs" then some .runs
  else if manualPaths.contains fixed then some .manual
  else
    let threads := "/api/threads/".toList
    let name := path.drop threads.length
    if threads.isPrefixOf path && !name.isEmpty && !name.contains '/' then
      some (.thread (String.ofList name))
    else none

/-- Whether a path is that of a resource but for the slashes at its end. -/
def isMisspelt (path : List Char) : Bool :=
  path.getLast? == some '/' &&
    (resourceAt? (path.reverse.dropWhile (· == '/')).reverse).isSome

/-- The methods that a resource answers to. -/
def Resource.methods : Resource → List String
  | health => ["GET"]
  | runs => ["POST"]
  | thread _ => ["GET"]
  | manual => ["GET", "HEAD"]

end MeetDesk.Http
