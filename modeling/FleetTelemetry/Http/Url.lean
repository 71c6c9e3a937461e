import FleetTelemetry.Text.Escaped
import FleetTelemetry.Text.Split

/-!
# Request targets

The part of an address that is asked for: its path and query. Characters that may not stand there
are written as their UTF-8 bytes in hexadecimal, dots that stand for directories are worked out,
and a fragment is not sent.
-/

namespace FleetTelemetry.Http

open Text

def percentByte (b : UInt8) : List Char :=
  let digits := (hexadecimal b.toNat).map Char.toUpper
  '%' :: List.replicate (2 - digits.length) '0' ++ digits

def percentChar (encoded : Char → Bool) (c : Char) : List Char :=
  if encoded c then (String.utf8EncodeChar c).flatMap percentByte else [c]

def isEncodedAlways (c : Char) : Bool :=
  c.toNat < 0x20 || 0x7E < c.toNat

def isEncodedInPath (c : Char) : Bool :=
  isEncodedAlways c || c ∈ [' ', '"', '<', '>', '`', '#', '?', '\x7b', '\x7d']

def isEncodedInQuery (c : Char) : Bool :=
  isEncodedAlways c || c ∈ [' ', '"', '#', '<', '>', '\'']

def splitBefore (p : Char → Bool) (s : List Char) : List Char × List Char :=
  (s.takeWhile fun c => !p c, s.dropWhile fun c => !p c)

def isDot (segment : List Char) : Bool :=
  segment.map Char.toLower ∈ [['.'], ['%', '2', 'e']]

def isDoubleDot (segment : List Char) : Bool :=
  segment.map Char.toLower ∈
    [['.', '.'], ['.', '%', '2', 'e'], ['%', '2', 'e', '.'], ['%', '2', 'e', '%', '2', 'e']]

/-- Works out dots; the segments so far are in reverse. A dot at the end leaves a slash there. -/
def resolveDots : List (List Char) → List (List Char) → List (List Char)
  | reversed, [] => reversed.reverse
  | reversed, [segment] =>
    if isDoubleDot segment then ([] :: reversed.tail).reverse
    else if isDot segment then ([] :: reversed).reverse
    else (segment :: reversed).reverse
  | reversed, segment :: rest =>
    if isDoubleDot segment then resolveDots reversed.tail rest
    else if isDot segment then resolveDots reversed rest
    else resolveDots (segment :: reversed) rest

/-- The path that is asked for; it always starts with a slash. -/
def targetPath (path : List Char) : List Char :=
  let segments := pieces '/' ((path.map fun c => if c = '\\' then '/' else c).drop 1)
  (resolveDots [] segments).flatMap fun segment =>
    '/' :: segment.flatMap (percentChar isEncodedInPath)

/-- The path and query that are asked for when the text after the host is `rest`. -/
def requestTarget (rest : String) : String :=
  let kept := rest.toList.filter fun c => c ∉ ['\t', '\n', '\r']
  let trimmed := (kept.reverse.dropWhile fun c => c.toNat ≤ 0x20).reverse
  let sent := (splitBefore (· = '#') trimmed).1
  let (path, query) := splitBefore (· = '?') sent
  String.ofList (targetPath path ++ query.take 1 ++
    (query.drop 1).flatMap (percentChar isEncodedInQuery))

def requestLine (rest : String) : String :=
  "GET " ++ requestTarget rest ++ " HTTP/1.1"

end FleetTelemetry.Http
