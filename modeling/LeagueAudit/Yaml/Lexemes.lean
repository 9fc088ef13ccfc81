import LeagueAudit.Yaml.Scan

/-!
The tokens of a text. A colon makes a key of what stands before it on its line, so the marks of a
key, and of the block that it starts, are set before tokens that were read already.
-/
namespace LeagueAudit.Yaml.Scan

/-- Adds a token. -/
def emit (token : Token) : Scan Unit := modify fun cursor =>
  { cursor with tokens := cursor.tokens.push ⟨cursor.line + 1, token⟩ }

/-- How many characters may stand between the start of a key and its colon. -/
def keyReach : Nat := 1024

/-- A key stands on one line, and its colon not too far away. -/
def isStale (cursor : Cursor) (key : PossibleKey) : Bool :=
  key.line != cursor.line || cursor.index - key.index > keyReach

/-- Gives up the possible keys that can no longer be keys. -/
def dropStale : Scan Unit := do
  let cursor ← get
  if cursor.keys.any fun (_, key) => isStale cursor key && key.required then
    fail "a colon is missing"
  else
    modify fun c => { c with keys := c.keys.filter fun (_, key) => !isStale cursor key }

/-- Gives up the possible key between the innermost brackets. -/
def dropKey : Scan Unit := do
  let cursor ← get
  if (cursor.keys.lookup cursor.depth).any (·.required) then fail "a colon is missing"
  else modify fun c => { c with keys := c.keys.filter (·.1 != c.depth) }

/-- The next token may be a key. -/
def noteKey : Scan Unit := do
  if (← get).keyAllowed then do
    dropKey
    modify fun c =>
      let required := c.depth = 0 && c.indent = c.column
      { c with keys := (c.depth, ⟨c.tokens.size, required, c.index, c.line, c.column⟩) :: c.keys }

/-- Ends the blocks that start behind a column; the list holds the blocks around them. -/
def endBlocksIn (column : Int) (cursor : Cursor) : List Int → Cursor
  | [] => cursor
  | around :: rest =>
    if cursor.indent > column then
      let tokens := cursor.tokens.push ⟨cursor.line + 1, .blockEnd⟩
      endBlocksIn column { cursor with indent := around, indents := rest, tokens } rest
    else cursor

/-- Ends the blocks that start behind a column. Between brackets, columns do not count. -/
def endBlocks (column : Int) : Scan Unit := modify fun cursor =>
  if cursor.depth = 0 then endBlocksIn column cursor cursor.indents else cursor

/-- Starts a block in a column behind that of the innermost one, if it is behind it. -/
def startBlock (column : Int) : Scan Bool := do
  let cursor ← get
  if cursor.indent < column then do
    modify fun c => { c with indent := column, indents := c.indent :: c.indents }
    return true
  else return false

/-- Ends all blocks, as the marks between documents do. -/
def endAll : Scan Unit := do
  endBlocks (-1)
  dropKey
  allowKey false

/-- Takes an opening bracket. -/
def openFlow (token : Token) : Scan Unit := do
  noteKey
  modify fun c => { c with depth := c.depth + 1, keyAllowed := true }
  advance
  emit token

/-- Takes a closing bracket. -/
def closeFlow (token : Token) : Scan Unit := do
  dropKey
  modify fun c => { c with depth := c.depth - 1, keyAllowed := false }
  advance
  emit token

def takeComma : Scan Unit := do
  allowKey true
  dropKey
  advance
  emit .comma

/-- Starts a block at a mark that stands here, where such a mark may stand. -/
def startBlockHere (token : Token) : Scan Unit := do
  let cursor ← get
  if cursor.depth = 0 then
    if !cursor.keyAllowed then fail "this mark is not allowed here"
    else if ← startBlock cursor.column then emit token

def takeEntry : Scan Unit := do
  startBlockHere .blockSequence
  allowKey true
  dropKey
  advance
  emit .entry

def takeKey : Scan Unit := do
  startBlockHere .blockMapping
  allowKey ((← get).depth = 0)
  dropKey
  advance
  emit .key

/-- Sets a token before others. -/
def insertToken (number line : Nat) (token : Token) : Scan Unit := modify fun c =>
  { c with tokens := c.tokens.insertIdxIfInBounds number ⟨line + 1, token⟩ }

/-- Takes a colon. The possible key before it is a key. -/
def takeValue : Scan Unit := do
  let cursor ← get
  match cursor.keys.lookup cursor.depth with
  | some key => do
    dropKeyAt cursor.depth
    insertToken key.number key.line .key
    if cursor.depth = 0 then
      if ← startBlock key.column then insertToken key.number key.line .blockMapping
    allowKey false
  | none => do
    startBlockHere .blockMapping
    allowKey (cursor.depth = 0)
  advance
  emit .value
where
  dropKeyAt (depth : Nat) : Scan Unit := modify fun c =>
    { c with keys := c.keys.filter (·.1 != depth) }

/-- A character of a name. -/
def isNameChar (c : Char) : Bool :=
  ('a' ≤ c.toLower && c.toLower ≤ 'z') || c.isDigit || c == '-' || c == '_'

/-- The name behind a mark. -/
def nameAfterMark : Scan String := do
  advance
  let name ← takeWhile isNameChar
  let ends := ['?', ':', ',', ']', '\x7d', '%', '@', '`']
  let next ← peek
  if name.isEmpty || !(isGap next || next.any ends.contains) then fail "a bad name of an anchor"
  else return String.ofList name

/-- The end of a word of a directive or of a type: a tab is no such end. -/
def endsWord (next : Option Char) : Bool := isGap next && next != some '\t'

/-- A character of the name of a type; a percent sign escapes others. -/
def isTagChar (c : Char) : Bool := isNameChar c || ";/?:@&=+$,.!~*'()[]".toList.contains c

/-- Bytes in digits of base sixteen, each behind a percent sign. -/
def escapedBytes : Nat → Scan (List UInt8)
  | 0 => return []
  | fuel + 1 => do
    if (← peek) != some '%' then return []
    else
      advance
      let digits := (← get).rest.take 2
      if digits.length = 2 && digits.all isHexDigit then
        modify (pass · digits)
        let byte := digits.foldl (fun n c => n * 16 + digitValue c) 0
        return UInt8.ofNat byte :: (← escapedBytes fuel)
      else fail "an escape lacks digits"

/-- The rest of the name of a type. -/
def tagChars : Nat → Scan (List Char)
  | 0 => return []
  | fuel + 1 => do
    let cs ← takeWhile isTagChar
    if (← peek) != some '%' then return cs
    else
      match Text.decodeUtf8 (← escapedBytes ((← remaining) + 1)) with
      | .ok more => return cs ++ more ++ (← tagChars fuel)
      | .error _ => fail "an escape is no text"

/-- The name of a type. -/
def tagName : Scan String := do
  let cs ← tagChars ((← remaining) + 1)
  if cs.isEmpty then fail "a type has no name" else return String.ofList cs

/-- The short name for what the name of a type begins with: a mark, or a name between two marks. -/
def tagHandle : Scan String := do
  if (← peek) != some '!' then fail "a mark of a type is missing"
  else
    advance
    if (← peek) == some ' ' then return "!"
    else
      let name ← takeWhile isNameChar
      if (← peek) != some '!' then fail "a mark of a type is missing"
      else
        advance
        return String.ofList ('!' :: name ++ ['!'])

/-- The type of a node, at its first mark. -/
def tag : Scan Token := do
  let second ← peekSecond
  let token ←
    if second == some '<' then do
      advance
      advance
      let name ← tagName
      if (← peek) != some '>' then fail "the name of a type is not closed"
      else
        advance
        pure (Token.tag none name)
    else if isGap second then do
      advance
      pure (Token.tag none "!")
    else do
      let word := ((← get).rest.drop 1).takeWhile fun c => c != ' ' && !isBreak c
      let handle ←
        if word.contains '!' then tagHandle
        else do
          advance
          pure "!"
      pure (Token.tag (some handle) (← tagName))
  if endsWord (← peek) then return token else fail "a bad name of a type"

/-- The digits of a version. -/
def versionPart : Scan Nat := do
  let digits ← takeWhile Char.isDigit
  if digits.isEmpty then fail "a version lacks digits" else return digitsValue digits

/-- What a directive says. -/
def directiveValue (name : String) : Scan Token := do
  if name = "YAML" then
    let _ ← takeWhile (· == ' ')
    let major ← versionPart
    if (← peek) != some '.' then fail "a version lacks a point"
    else
      advance
      let _ ← versionPart
      if endsWord (← peek) then return .version major else fail "a bad version"
  else if name = "TAG" then
    let _ ← takeWhile (· == ' ')
    let handle ← tagHandle
    if (← peek) != some ' ' then fail "a bad short name"
    else
      let _ ← takeWhile (· == ' ')
      let meaning ← tagName
      if endsWord (← peek) then return .handle handle meaning else fail "a bad short name"
  else
    let _ ← takeWhile fun c => !isBreak c
    return .directive

/-- A directive, at its percent sign. -/
def directive : Scan Token := do
  advance
  let name ← takeWhile isNameChar
  if name.isEmpty || !endsWord (← peek) then fail "a bad directive"
  else
    let token ← directiveValue (String.ofList name)
    takeComment
    match ← peek with
    | none => return token
    | some c =>
      if isBreak c then do
        let _ ← takeBreak
        return token
      else fail "text behind a directive"

/-- Takes a token that may be a key. -/
def takeSimple (token : Scan Token) : Scan Unit := do
  noteKey
  allowKey false
  emit (← token)

/-- Takes the token that starts with a character. -/
def takeToken (c : Char) : Scan Unit := do
  let flow := (← get).depth != 0
  let bare := flow || isGap (← peekSecond)
  if c == '%' && (← column) == 0 then do
    endAll
    emit (← directive)
  else if ← atMarker then do
    endAll
    let _ ← takeWhile (· == c)
    emit (if c == '-' then .documentStart else .documentEnd)
  else if c == '[' then openFlow .openBracket
  else if c == '\x7b' then openFlow .openBrace
  else if c == ']' then closeFlow .closeBracket
  else if c == '\x7d' then closeFlow .closeBrace
  else if c == ',' then takeComma
  else if c == '-' && isGap (← peekSecond) then takeEntry
  else if c == '?' && bare then takeKey
  else if c == ':' && bare then takeValue
  else if c == '*' then takeSimple do return .mention (← nameAfterMark)
  else if c == '&' then takeSimple do return .anchor (← nameAfterMark)
  else if c == '!' then takeSimple tag
  else if !flow && (c == '|' || c == '>') then do
    allowKey true
    dropKey
    emit (← blockText)
  else if c == '\'' || c == '"' then takeSimple (quoted (c == '"'))
  else if ← startsPlain flow then do
    noteKey
    emit (← plain)
  else fail "no token can start here"

/-- Takes the next token, or says that there is none. -/
def takeNext : Scan Bool := do
  skip
  dropStale
  endBlocks (← column)
  match ← peek with
  | some c => do
    takeToken c
    return true
  | none => do
    endAll
    return false

/-- The tokens that stay where they are, whatever follows. -/
def settled (cursor : Cursor) : Array Lexeme :=
  let number := (cursor.keys.map fun (_, key) => key.number).foldl min cursor.tokens.size
  cursor.tokens.extract 0 number

/-- The tokens after a cursor, at most so many, and the fault that ends them. -/
def lexemesFrom : Nat → Cursor → Array Lexeme × Option ReadFault
  | 0, cursor => (cursor.tokens, none)
  | fuel + 1, cursor =>
    match takeNext.run cursor with
    | .ok (true, cursor) => lexemesFrom fuel cursor
    | .ok (false, cursor) => (cursor.tokens, none)
    | .error fault => (settled cursor, some fault)

/-- The tokens of a text, and the fault that ends them. -/
def lexemes (cs : List Char) : Array Lexeme × Option ReadFault :=
  lexemesFrom (cs.length + 1) { rest := cs, size := cs.length }

end LeagueAudit.Yaml.Scan
