import BucketReef.Scheduling.Claim
import BucketReef.Texts.Percent
import Mathlib

/-!
# Server access log records

How a line of a server access log becomes an entry of the portal, and the standard layout that such
a line is written in.
-/

namespace BucketReef
namespace AccessRecords

open Texts Scheduling

abbrev Text := List Char

/-- The interpreter's tables of characters, its calendar and its hash. -/
structure Library (Time : Type) where
  /-- The upper case of a character, which may be several. -/
  upperChar : Char → Text
  /-- The value of a decimal digit. -/
  decimal : Char → Option ℕ
  /-- Reads `%d/%b/%Y:%H:%M:%S %z` as a time in UTC. -/
  strptime : Text → Option Time
  strftime : Time → Text
  /-- The first sixteen hexadecimal digits of the SHA-1 hash. -/
  sha1 : Text → Text
  upper_ascii : ∀ c : Char, c.toNat < 128 → upperChar c = [c.toUpper]
  decimal_ascii : ∀ c : Char, c.isDigit → decimal c = some (c.toNat - 48)
  strptime_strftime : ∀ time, strptime (strftime time) = some time
  strftime_closed : ∀ time, ']' ∉ strftime time

variable {Time : Type} (lib : Library Time)

/-! ## Words of the source -/

def upper (text : Text) : Text := text.flatMap lib.upperChar

def strip (text : Text) : Text := trim isSpace text

/-- `str.find` of one character. -/
def find (c : Char) (text : Text) : Option ℕ := text.findIdx? fun x => decide (x = c)

/-- `str.split()` -/
def words (text : Text) : List Text := (text.splitOnP isSpace).filter (· ≠ [])

def startsWith (text : Text) (start : String) : Bool := start.toList.isPrefixOf text

def contains (text : Text) (part : String) : Bool := decide (part.toList <:+: text)

/-- The digits of a number; single underscores may stand between them. -/
def readDigits : Text → Option (List ℕ)
  | [] => none
  | [c] => (lib.decimal c).map fun d => [d]
  | c :: '_' :: text => do
    let d ← lib.decimal c
    let rest ← readDigits text
    return d :: rest
  | c :: text => do
    let d ← lib.decimal c
    let rest ← readDigits text
    return d :: rest

/-- The longest number that `int` reads. -/
def maxDigits : ℕ := 4300

/-- The sign of a number and what follows it. -/
def signed : Text → ℤ × Text
  | '-' :: body => (-1, body)
  | '+' :: body => (1, body)
  | body => (1, body)

/-- `int` of a text. -/
def int (text : Text) : Option ℤ :=
  let (sign, body) := signed (strip text)
  (readDigits lib body).bind fun digits =>
    if digits.length ≤ maxDigits then
      some (sign * (digits.foldl (fun value d => 10 * value + d) 0 : ℕ))
    else none

def dash : Text := ['-']

def dashToNone (value : Option Text) : Option Text :=
  value.bind fun text => if text = dash then none else some text

def safeInt (value : Option Text) : Option ℤ := (dashToNone value).bind (int lib)

/-! ## Operations -/

inductive OperationCategory
  | upload | download | delete | list | metadata | other
  deriving DecidableEq, Repr

inductive Direction
  | upload | download
  deriving DecidableEq, Repr

def metadataMarkers : List String :=
  [".ACL", ".TAGGING", ".RETENTION", ".LEGAL_HOLD", ".VERSIONING", ".LIFECYCLE", ".CORS", ".POLICY"]

def classifyOperation (operation : Text) : OperationCategory × Option Direction :=
  let normalized := upper lib operation
  if normalized ∈ ["REST.PUT.OBJECT", "REST.POST.OBJECT", "REST.POST.UPLOAD"].map String.toList ∨
      startsWith normalized "REST.PUT.OBJECT" then (.upload, some .upload)
  else if startsWith normalized "REST.GET.OBJECT" then (.download, some .download)
  else if contains normalized ".DELETE." then (.delete, none)
  else if contains normalized "LIST" ∨ startsWith normalized "REST.GET.BUCKET" then (.list, none)
  else if startsWith normalized "REST.HEAD." ∨ metadataMarkers.any (contains normalized) then
    (.metadata, none)
  else (.other, none)

/-! ## The line -/

def standardAccessLogBucket (line : Text) : Option Text :=
  (find '[' line).bind fun start => (words (strip (line.take start)))[1]?

def standardAccessLogTimestamp (line : Text) : Option Time :=
  (find '[' line).bind fun start =>
    (find ']' (line.drop (start + 1))).bind fun stop =>
      lib.strptime ((line.drop (start + 1)).take stop)

structure StandardAccessLogTokens where
  values : List Text
  operationIndex : ℕ
  requestUriIndex : ℕ

namespace StandardAccessLogTokens

def operation (tokens : StandardAccessLogTokens) : Text :=
  tokens.values.getD tokens.operationIndex []

def tail (tokens : StandardAccessLogTokens) : List Text :=
  tokens.values.drop (tokens.requestUriIndex + 1)

end StandardAccessLogTokens

/-- The token names an operation. -/
def isOperation (token : Text) : Bool :=
  startsWith (upper lib token) "REST." || startsWith (upper lib token) "WEBSITE."

def httpMethods : List String := ["GET", "POST", "PUT", "DELETE", "HEAD", "PATCH", "OPTIONS"]

def isDecimal (c : Char) : Bool := (lib.decimal c).isSome

/-- ` HTTP/\d(?:\.\d)?$`; a line may end in one newline. -/
def isHttpVersion (text : Text) : Bool :=
  startsWith text " HTTP/" && match text.drop 6 with
    | [d] | [d, '\n'] => isDecimal lib d
    | [d, '.', e] | [d, '.', e, '\n'] => isDecimal lib d && isDecimal lib e
    | _ => false

/-- `^(GET|…|OPTIONS) .+ HTTP/\d(?:\.\d)?$` -/
def isHttpRequest (token : Text) : Bool :=
  httpMethods.any fun method =>
    startsWith token (method ++ " ") &&
      let target := token.drop (method.length + 1)
      (List.range target.length).any fun n =>
        0 < n && (target.take n).all (· ≠ '\n') && isHttpVersion lib (target.drop n)

/-- The tokens with the places of the operation and of the request URI: the first token that names an
operation, and the first one after it that looks like a request or else the second one. -/
def locateTokens (tokens : List Text) : Option StandardAccessLogTokens :=
  (tokens.findIdx? (isOperation lib)).bind fun operationIndex =>
    if operationIndex < 2 ∨ tokens.length ≤ operationIndex + 2 then none
    else
      let requestUriIndex := match (tokens.drop (operationIndex + 1)).findIdx? (isHttpRequest lib) with
        | some n => operationIndex + 1 + n
        | none => operationIndex + 2
      some ⟨tokens, operationIndex, requestUriIndex⟩

def parseStandardAccessLogTokens (line : Text) : Option StandardAccessLogTokens :=
  let rest := match find ']' line with
    | some stop => line.drop (stop + 1)
    | none => line
  (ShellWords.split (strip rest)).bind (locateTokens lib)

/-- The object's tokens joined by slashes, decoded. -/
def standardAccessLogObjectKey (tokens : StandardAccessLogTokens) : Option Text :=
  let objectTokens := ((tokens.values.take tokens.requestUriIndex).drop
    (tokens.operationIndex + 1)).map fun token => dashToNone (some token)
  let objectParts := objectTokens.filterMap fun token =>
    token.bind fun text => if text = [] then none else some (trim Percent.isSlash text)
  if objectParts = [] then none else some (Percent.unquote (List.intercalate ['/'] objectParts))

/-- `os.path.basename` -/
def basename (path : Text) : Text := path.rtakeWhile fun c => !Percent.isSlash c

structure StorageSpace where
  id : String
  name : String

structure Entry (Time : Type) where
  id : Text
  source : String
  timestamp : Time
  storageSpaceId : String
  storageSpaceName : String
  bucketName : Text
  operation : Text
  operationCategory : OperationCategory
  objectKey : Option Text
  objectName : Option Text
  direction : Option Direction
  statusCode : Option ℤ
  errorCode : Option Text
  bytesSent : Option ℤ
  objectSize : Option ℤ
  requester : Option Text
  requesterIdentity : Option Text
  clientIp : Option Text
  authType : Option Text
  requestId : Option Text
  requestUri : Option Text
  userAgent : Option Text
  logObjectKey : Text

def objectName (objectKey : Option Text) : Option Text :=
  objectKey.bind fun key =>
    if key = [] then none else some (basename (key.rdropWhile Percent.isSlash))

/-- The tokens before the operation, from the request id on; `None` when there is nothing. -/
def requestId (tokens : StandardAccessLogTokens) : Option Text :=
  let joined := strip (List.intercalate [' '] ((tokens.values.take tokens.operationIndex).drop 2))
  if joined = [] then none else some joined

def entryOf (line logObjectKey bucketName : Text) (storageSpace : StorageSpace) (timestamp : Time)
    (parsedTokens : StandardAccessLogTokens) : Entry Time :=
  let tokens := parsedTokens.values
  let tail := parsedTokens.tail
  let objectKey := standardAccessLogObjectKey parsedTokens
  { id := "server-log-".toList ++ lib.sha1 (logObjectKey ++ '\n' :: line)
    source := "server_access_logging"
    timestamp := timestamp
    storageSpaceId := storageSpace.id
    storageSpaceName := storageSpace.name
    bucketName := bucketName
    operation := parsedTokens.operation
    operationCategory := (classifyOperation lib parsedTokens.operation).1
    objectKey := objectKey
    objectName := objectName objectKey
    direction := (classifyOperation lib parsedTokens.operation).2
    statusCode := safeInt lib tail[0]?
    errorCode := dashToNone tail[1]?
    bytesSent := safeInt lib tail[2]?
    objectSize := safeInt lib tail[3]?
    requester := dashToNone tokens[1]?
    requesterIdentity := none
    clientIp := dashToNone tokens[0]?
    authType := dashToNone tail[12]?
    requestId := requestId parsedTokens
    requestUri := dashToNone tokens[parsedTokens.requestUriIndex]?
    userAgent := dashToNone tail[7]?
    logObjectKey := logObjectKey }

def parseStandardAccessLogLine (line logObjectKey : Text) (spaceByBucket : Text → Option StorageSpace) :
    Option (Entry Time) := do
  let bucketName ← standardAccessLogBucket line
  let storageSpace ← spaceByBucket bucketName
  let timestamp ← standardAccessLogTimestamp lib line
  let parsedTokens ← parseStandardAccessLogTokens lib line
  return entryOf lib line logObjectKey bucketName storageSpace timestamp parsedTokens

end AccessRecords
end BucketReef
