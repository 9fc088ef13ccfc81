import LeagueAudit.Fault

/-!
Addresses: a scheme, an authority, a path with parameters, a query and a fragment. A relative
address is completed from a base, step by step along the path.
-/
namespace LeagueAudit

/-- The parts of an address; parts that are not there are empty. -/
structure Address where
  scheme : List Char := []
  authority : List Char := []
  path : List Char := []
  params : List Char := []
  query : List Char := []
  fragment : List Char := []
  deriving DecidableEq, Repr

namespace Address

/-- The schemes whose addresses may be relative. -/
def relativeSchemes : List String :=
  ["", "ftp", "http", "gopher", "nntp", "imap", "wais", "file", "https", "shttp", "mms", "prospero",
    "rtsp", "rtsps", "rtspu", "sftp", "svn", "svn+ssh", "ws", "wss"]

/-- The schemes whose addresses have an authority. -/
def authoritySchemes : List String :=
  ["", "ftp", "http", "gopher", "nntp", "telnet", "imap", "wais", "file", "mms", "https", "shttp",
    "snews", "prospero", "rtsp", "rtsps", "rtspu", "rsync", "svn", "svn+ssh", "sftp", "nfs", "git",
    "git+ssh", "ws", "wss"]

/-- The schemes whose paths end in parameters. -/
def paramSchemes : List String :=
  ["", "ftp", "hdl", "prospero", "http", "imap", "https", "shttp", "rtsp", "rtsps", "rtspu", "sip",
    "sips", "mms", "sftp", "tel"]

def isOneOf (schemes : List String) (scheme : List Char) : Bool :=
  schemes.contains (String.ofList scheme)

/-- Splits a text at the first mark. -/
def splitAt? (mark : Char) (cs : List Char) : Option (List Char × List Char) :=
  match cs.dropWhile (· != mark) with
  | [] => none
  | _ :: rest => some (cs.takeWhile (· != mark), rest)

/-- The parts of a text between marks. -/
def splitAll (mark : Char) : List Char → List (List Char)
  | [] => [[]]
  | c :: rest =>
    if c = mark then [] :: splitAll mark rest
    else
      match splitAll mark rest with
      | first :: more => (c :: first) :: more
      | [] => [[c]]

def isSchemeChar (c : Char) : Bool := c.isAlphanum || c = '+' || c = '-' || c = '.'

/-- Splits off the scheme, in small letters. -/
def splitScheme (cs : List Char) : Option (List Char × List Char) :=
  match splitAt? ':' cs with
  | some (scheme, rest) =>
    if (scheme.head?.any Char.isAlpha) && scheme.all isSchemeChar then
      some (scheme.map Char.toLower, rest)
    else none
  | none => none

/-- What stands in brackets in an authority has to be a number of a network. -/
def bracketed (authority : List Char) : Option (List Char) :=
  (splitAt? '[' authority).map fun (_, rest) => rest.takeWhile (· != ']')

/-- Splits off the authority behind two slashes. -/
def splitAuthority (cs : List Char) : List Char × List Char :=
  let inside (c : Char) : Bool := c != '/' && c != '?' && c != '#'
  (cs.takeWhile inside, cs.dropWhile inside)

/-- Splits off a part behind a mark, empty when there is no mark. -/
def splitPart (mark : Char) (cs : List Char) : List Char × List Char :=
  (splitAt? mark cs).getD (cs, [])

/-- The parameters stand behind a semicolon in the last step of a path. -/
def splitParams (path : List Char) : List Char × List Char :=
  let last := (path.reverse.takeWhile (· != '/')).reverse
  match splitAt? ';' last with
  | some (step, params) => (path.take (path.length - last.length) ++ step, params)
  | none => (path, [])

/-- Blanks and control characters at the start and line ends inside an address do not count. -/
def clean (cs : List Char) : List Char :=
  (cs.dropWhile fun c => c.toNat ≤ 0x20).filter fun c => c != '\t' && c != '\r' && c != '\n'

def badBrackets : Fault := .wrongValue "Invalid IPv6 URL"

/-- Reads an address; `scheme` is the one of an address without a scheme. -/
def read (scheme : List Char) (cs : List Char) : Except Fault Address := do
  let (scheme, rest) := (splitScheme (clean cs)).getD (scheme, clean cs)
  let (authority, rest) :=
    match rest with
    | '/' :: '/' :: rest => splitAuthority rest
    | rest => ([], rest)
  if authority.contains '[' != authority.contains ']' then .error badBrackets
  let (rest, fragment) := splitPart '#' rest
  let (path, query) := splitPart '?' rest
  let (path, params) :=
    if isOneOf paramSchemes scheme && path.contains ';' then splitParams path else (path, [])
  .ok { scheme, authority, path, params, query, fragment }

/-- The text of an address. -/
def text (a : Address) : List Char :=
  let behind (mark : Char) (part : List Char) : List Char :=
    if part.isEmpty then [] else mark :: part
  let path := a.path ++ behind ';' a.params
  let slashes := path.take 2 == ['/', '/']
  let owned := !a.scheme.isEmpty && isOneOf authoritySchemes a.scheme
  let path :=
    if !a.authority.isEmpty || owned || slashes then
      let path := if path.isEmpty || path.head? == some '/' then path else '/' :: path
      '/' :: '/' :: (a.authority ++ path)
    else path
  let whole := if a.scheme.isEmpty then path else a.scheme ++ ':' :: path
  whole ++ behind '?' a.query ++ behind '#' a.fragment

/-- Drops the empty steps inside a path. -/
def withoutEmptySteps : List (List Char) → List (List Char)
  | first :: rest =>
    match rest.getLast? with
    | some last => first :: (rest.dropLast.filter (!·.isEmpty) ++ [last])
    | none => [first]
  | [] => []

def here : List Char := ['.']
def up : List Char := ['.', '.']

/-- Resolves the steps to the same and to the upper level. -/
def resolveSteps (steps : List (List Char)) : List (List Char) :=
  let kept := steps.foldl (fun kept step =>
    if step = up then kept.dropLast else if step = here then kept else kept ++ [step]) []
  if steps.getLast? = some here || steps.getLast? = some up then kept ++ [[]] else kept

/-- Joins steps by slashes. -/
def joinSteps : List (List Char) → List Char
  | [] => []
  | [last] => last
  | step :: rest => step ++ '/' :: joinSteps rest

/-- The path of a relative address, completed by the path of the base. -/
def joinPath (base path : List Char) : List Char :=
  let steps :=
    if path.head? == some '/' then splitAll '/' path
    else
      let whole := splitAll '/' base
      let folder := if whole.getLast? = some [] then whole else whole.dropLast
      withoutEmptySteps (folder ++ splitAll '/' path)
  let joined := joinSteps (resolveSteps steps)
  if joined.isEmpty then ['/'] else joined

/-- An address seen from a base. -/
def complete (base a : Address) : Address :=
  if isOneOf authoritySchemes a.scheme && !a.authority.isEmpty then a
  else
    let authority := if isOneOf authoritySchemes a.scheme then base.authority else a.authority
    if a.path.isEmpty && a.params.isEmpty then
      { a with
        authority, path := base.path, params := base.params
        query := if a.query.isEmpty then base.query else a.query }
    else { a with authority, path := joinPath base.path a.path }

/-- The text of an address seen from a base. -/
def join (base address : String) : Except Fault String := do
  if base.isEmpty then .ok address
  else if address.isEmpty then .ok base
  else
    let b ← read [] base.toList
    let a ← read b.scheme address.toList
    if a.scheme != b.scheme || !isOneOf relativeSchemes a.scheme then .ok address
    else .ok (String.ofList (b.complete a).text)

/-- Splits the fragment off the text of an address. -/
def splitFragment (address : String) : Except Fault (String × String) := do
  if !address.contains '#' then .ok (address, "")
  else
    let a ← read [] address.toList
    .ok (String.ofList { a with fragment := [] }.text, String.ofList a.fragment)

/-- An address without number signs at its end. -/
def withoutEmptyFragment (address : String) : String :=
  String.ofList (address.toList.reverse.dropWhile (· == '#')).reverse

end Address
end LeagueAudit
