import Mathlib

/-! The patterns of commands and how a line finds its command, of lib/command.c. A word is the
characters of a string; help texts and completion are left out. -/
namespace Zebra

abbrev Word := List Char

/-- `isspace`. -/
def isSpace (c : Char) : Bool := c = ' ' || ('\t' ≤ c && c ≤ '\r')

/-- The value of the digits in front, how many there are, and what follows. -/
def readDigits : Nat → Nat → Word → Nat × Nat × Word
  | value, count, [] => (value, count, [])
  | value, count, c :: rest =>
    if c.isDigit then readDigits (value * 10 + (c.toNat - 48)) (count + 1) rest
      else (value, count, c :: rest)

/-- The sign in front, and what follows. -/
def readSign : Word → Bool × Word
  | '-' :: rest => (true, rest)
  | '+' :: rest => (false, rest)
  | rest => (false, rest)

/-- `strtoul` to the base 10, with what `endptr` points to. -/
def strtoul (str : Word) : Nat × Word :=
  let (negative, digits) := readSign (str.dropWhile isSpace)
  let (value, count, rest) := readDigits 0 0 digits
  if count = 0 then (0, str)
  else if 2 ^ 64 ≤ value then (2 ^ 64 - 1, rest)
  else if negative then ((2 ^ 64 - value) % 2 ^ 64, rest)
  else (value, rest)

/-- `strtol` to the base 10. -/
def strtol (str : Word) : Int × Word :=
  let (negative, digits) := readSign (str.dropWhile isSpace)
  let (value, count, rest) := readDigits 0 0 digits
  if count = 0 then (0, str)
  else if negative then (max (-(value : Int)) (-(2 ^ 63)), rest)
  else (min (value : Int) (2 ^ 63 - 1), rest)

/-- A `long` that is stored in an `int`. -/
def intOfLong (value : Int) : Int := (BitVec.ofInt 32 value).toInt

def atoi (str : Word) : Int := intOfLong (strtol str).1

/-- A piece of a pattern ends here. -/
def endsPiece (c : Char) : Bool := isSpace c || c = ')' || c = '|'

/-- The marks before a piece. Behind `(` the pieces are alternatives until `)`, and `|` stands
between them. The count is zero outside, and one more than there are pieces inside. A `|` outside
stops the program. -/
def readMarks (multiple : Nat) (cp : Word) : Option (Nat × Word) :=
  let cp := cp.dropWhile isSpace
  let (multiple, cp) := if cp.head? = some '(' then (1, cp.tail) else (multiple, cp)
  let (multiple, cp) := if cp.head? = some ')' then (0, cp.tail) else (multiple, cp)
  if cp.head? = some '|' ∧ multiple = 0 then none
  else
    let cp := if cp.head? = some '|' then cp.tail else cp
    let cp := cp.dropWhile isSpace
    some (if cp.head? = some '(' then (1, cp.tail) else (multiple, cp))

/-- A piece is added to the position before, or makes a new one. -/
def addDesc (allvec : List (List Word)) (multiple : Nat) (desc : Word) : List (List Word) :=
  if 1 < multiple then allvec.dropLast ++ [allvec.getLastD [] ++ [desc]] else allvec ++ [[desc]]

/-- The loop of `cmd_make_descvec`; every round reads a character at least. -/
def descvecFrom : Nat → Nat → Word → List (List Word) → Option (List (List Word))
  | 0, _, _, _ => none
  | fuel + 1, multiple, cp, allvec =>
    (readMarks multiple cp).bind fun (multiple, cp) =>
      if cp = [] then some allvec
      else
        descvecFrom fuel (if multiple = 0 then 0 else multiple + 1)
          (cp.dropWhile fun c => !endsPiece c)
          (addDesc allvec multiple (cp.takeWhile fun c => !endsPiece c))

/-- `cmd_make_descvec`: the alternatives of each position. -/
def cmdMakeDescvec (string : Word) : Option (List (List Word)) :=
  descvecFrom (string.length + 1) 0 string []

section
variable (s : Word)

def cmdOption : Bool := s.head? = some '['
def cmdVariable : Bool := s.head?.any fun c => ('A' ≤ c && c ≤ 'Z') || c = '<'
def cmdVararg : Bool := s.head? = some '.'
def cmdRange : Bool := s.head? = some '<'
def cmdIpv4 : Bool := s = "A.B.C.D".toList
def cmdIpv4Prefix : Bool := s = "A.B.C.D/M".toList
def cmdIpv6 : Bool := s = "X:X::X:X".toList
def cmdIpv6Prefix : Bool := s = "X:X::X:X/M".toList

end

/-- `cmd_cmdsize`: the positions before the first option. -/
def cmdCmdsize : List (List Word) → Nat
  | [] => 0
  | [str] :: rest => if cmdOption str then 0 else cmdCmdsize rest + 1
  | _ :: rest => cmdCmdsize rest + 1

/-- `struct cmd_element`. -/
structure CmdElement where
  string : Word
  func : Nat
  daemon : Bool := false
  strvec : List (List Word)
  cmdsize : Nat
deriving DecidableEq

/-- `install_element`. -/
def installElement (string : Word) (func : Nat) (daemon : Bool) : Option CmdElement :=
  (cmdMakeDescvec string).map fun strvec =>
    { string, func, daemon, strvec, cmdsize := cmdCmdsize strvec }

inductive MatchType where
  | noMatch
  | extendMatch
  | ipv4PrefixMatch
  | ipv4Match
  | ipv6PrefixMatch
  | ipv6Match
  | rangeMatch
  | varargMatch
  | partlyMatch
  | exactMatch
deriving DecidableEq

/-- The value of the enumeration. -/
def MatchType.rank : MatchType → Nat
  | .noMatch => 0
  | .extendMatch => 1
  | .ipv4PrefixMatch => 2
  | .ipv4Match => 3
  | .ipv6PrefixMatch => 4
  | .ipv6Match => 5
  | .rangeMatch => 6
  | .varargMatch => 7
  | .partlyMatch => 8
  | .exactMatch => 9

/-- A number of an address is too long or too high. -/
def badByte (num : Word) : Bool := 3 < num.length || 255 < atoi num

/-- `cmd_ipv4_match` from behind the digits in `num` on. -/
def ipv4From (dots nums : Nat) (num : Word) : Word → MatchType
  | [] => if badByte num then .noMatch else if nums + 1 < 4 then .partlyMatch else .exactMatch
  | c :: rest =>
    if c = '.' then
      if 3 ≤ dots then .noMatch
      else if rest.head? = some '.' then .noMatch
      else if rest = [] then .partlyMatch
      else if badByte num then .noMatch
      else ipv4From (dots + 1) (nums + 1) [] rest
    else if c.isDigit = false then .noMatch
    else ipv4From dots nums (num ++ [c]) rest

section
variable (str : Word)

def cmdIpv4Match : MatchType := ipv4From 0 0 [] str

/-- The length behind the slash. -/
def ipv4Mask : MatchType :=
  if str.all Char.isDigit = false then .noMatch else if 32 < atoi str then .noMatch else .exactMatch

/-- `cmd_ipv4_prefix_match` from behind the digits in `num` on. -/
def ipv4PrefixFrom (dots : Nat) (num : Word) : Word → MatchType
  | [] => if badByte num then .noMatch else .partlyMatch
  | c :: rest =>
    if c = '/' then
      if badByte num then .noMatch
      else if dots = 3 then (if rest = [] then .partlyMatch else ipv4Mask rest)
      else ipv4PrefixFrom dots [] rest
    else if c = '.' then
      if dots = 3 then .noMatch
      else if rest.head? = some '.' ∨ rest.head? = some '/' then .noMatch
      else if rest = [] then .partlyMatch
      else if badByte num then .noMatch
      else ipv4PrefixFrom (dots + 1) [] rest
    else if c.isDigit = false then .noMatch
    else ipv4PrefixFrom dots (num ++ [c]) rest

def cmdIpv4PrefixMatch : MatchType := ipv4PrefixFrom 0 [] str

def ipv6AddrStr : Word := "0123456789abcdefABCDEF:.%".toList
def ipv6PrefixStr : Word := "0123456789abcdefABCDEF:.%/".toList

inductive Ipv6State where
  | colon
  | double
  | addr
  | dot
  | slash
  | mask
deriving DecidableEq

/-- What the loops over an IPv6 address carry: `part` is what lies behind `sp`. -/
structure Ipv6Scan where
  state : Ipv6State
  colons : Int := 0
  nums : Nat := 0
  doubleColon : Nat := 0
  part : Word := []

/-- `STATE_START`, at the first character. -/
def ipv6Start (first : Char) (next : Option Char) : Option Ipv6Scan :=
  if first = ':' then
    if next ≠ some ':' ∧ next ≠ none then none else some { state := .colon, colons := -1 }
  else some { state := .addr }

/-- One character of `cmd_ipv6_match`. -/
def ipv6Step (scan : Ipv6Scan) (c : Char) (next : Option Char) : Option Ipv6Scan :=
  match scan.state with
  | .colon =>
    some { scan with
      colons := scan.colons + 1
      state := if next = some ':' then .double else .addr
      part := if next = some ':' then scan.part else [] }
  | .double =>
    if scan.doubleColon ≠ 0 ∨ next = some ':' then none
    else
      some { scan with
        colons := if next = none then scan.colons else scan.colons + 1
        nums := scan.nums + 1
        doubleColon := scan.doubleColon + 1
        part := []
        state := .addr }
  | .addr =>
    let part := scan.part ++ [c]
    if next = some ':' ∨ next = none then
      if 4 < part.length then none
        else some { scan with nums := scan.nums + 1, part, state := .colon }
    else if next = some '.' then some { scan with part, state := .dot }
    else some { scan with part }
  | .dot => some { scan with part := scan.part ++ [c], state := .addr }
  | .slash | .mask => some { scan with part := scan.part ++ [c] }

def ipv6From (scan : Ipv6Scan) : Word → MatchType
  | [] => .exactMatch
  | c :: rest =>
    match ipv6Step scan c rest.head? with
    | none => .noMatch
    | some after => if 8 < after.nums ∨ 7 < after.colons then .noMatch else ipv6From after rest

def cmdIpv6Match : MatchType :=
  if str.all (fun c => c ∈ ipv6AddrStr) = false then .noMatch
  else
    match str with
    | [] => .exactMatch
    | first :: rest =>
      match ipv6Start first rest.head? with
      | none => .noMatch
      | some scan => ipv6From scan str

/-- One character of `cmd_ipv6_prefix_match`, or what the function returns there. -/
def ipv6PrefixStep (scan : Ipv6Scan) (c : Char) (next : Option Char) : Except MatchType Ipv6Scan :=
  match scan.state with
  | .colon =>
    if next = some '/' then .error .noMatch
    else
      .ok { scan with
        colons := scan.colons + 1
        state := if next = some ':' then .double else .addr
        part := if next = some ':' then scan.part else [] }
  | .double =>
    if scan.doubleColon ≠ 0 ∨ next = some ':' then .error .noMatch
    else
      .ok { scan with
        colons := if next = none ∨ next = some '/' then scan.colons else scan.colons + 1
        nums := scan.nums + 1
        doubleColon := scan.doubleColon + 1
        part := []
        state := if next = some '/' then .slash else .addr }
  | .addr =>
    let part := scan.part ++ [c]
    if next = some ':' ∨ next = some '.' ∨ next = none ∨ next = some '/' then
      if 4 < part.length then .error .noMatch
      else if '/' ∈ part then .error .noMatch
      else
        .ok { scan with
          nums := scan.nums + 1
          part := []
          state :=
            if next = some ':' then .colon
            else if next = some '.' then .dot
            else if next = some '/' then .slash
            else .addr }
    else .ok { scan with part }
  | .dot => .ok { scan with part := scan.part ++ [c], state := .addr }
  | .slash => if next = none then .error .partlyMatch else .ok { scan with state := .mask }
  | .mask => .ok scan

/-- The length behind the slash. -/
def ipv6Mask : MatchType :=
  let (value, rest) := strtol str
  if rest ≠ [] then .noMatch else if intOfLong value < 0 ∨ 128 < intOfLong value then .noMatch
    else .exactMatch

def ipv6PrefixFrom (scan : Ipv6Scan) : Word → MatchType
  | [] => if scan.state = .mask then ipv6Mask [] else .partlyMatch
  | c :: rest =>
    if scan.state = .mask then ipv6Mask (c :: rest)
    else
      match ipv6PrefixStep scan c rest.head? with
      | .error result => result
      | .ok after => if 11 < after.nums ∨ 7 < after.colons then .noMatch
        else ipv6PrefixFrom after rest

def cmdIpv6PrefixMatch : MatchType :=
  if str.all (fun c => c ∈ ipv6PrefixStr) = false then .noMatch
  else
    match str with
    | [] => .partlyMatch
    | first :: rest =>
      match ipv6Start first rest.head? with
      | none => .noMatch
      | some scan => ipv6PrefixFrom scan str

end

def decimalStrlenMax : Nat := 10

/-- A number of a range up to `mark`, and what follows the mark. -/
def rangeNumber (mark : Char) (range : Word) : Option (Nat × Word) :=
  let num := range.takeWhile (· ≠ mark)
  if mark ∉ range ∨ decimalStrlenMax < num.length ∨ (strtoul num).2 ≠ [] then none
  else some ((strtoul num).1, (range.dropWhile (· ≠ mark)).tail)

def cmdRangeMatch (range str : Word) : Bool :=
  (strtoul str).2 = [] &&
    match rangeNumber '-' range.tail with
    | none => false
    | some (low, rest) =>
      match rangeNumber '>' rest with
      | none => false
      | some (high, _) => low ≤ (strtoul str).1 && (strtoul str).1 ≤ high

/-! Filters. A vector holds the commands whose slots are not null. -/

/-- What an alternative makes of a word; `strict` is the filter by string. -/
def descMatch (strict : Bool) (str command : Word) : MatchType :=
  let taken (result : MatchType) : Bool :=
    if strict then result = .exactMatch else result ≠ .noMatch
  if cmdVararg str then .varargMatch
  else if cmdRange str then if cmdRangeMatch str command then .rangeMatch else .noMatch
  else if cmdIpv6 str then if taken (cmdIpv6Match command) then .ipv6Match else .noMatch
  else if cmdIpv6Prefix str then if taken (cmdIpv6PrefixMatch command) then .ipv6PrefixMatch
    else .noMatch
  else if cmdIpv4 str then if taken (cmdIpv4Match command) then .ipv4Match else .noMatch
  else if cmdIpv4Prefix str then if taken (cmdIpv4PrefixMatch command) then .ipv4PrefixMatch
    else .noMatch
  else if cmdOption str || cmdVariable str then .extendMatch
  else if command = str then .exactMatch
  else if !strict && command.isPrefixOf str then .partlyMatch
  else .noMatch

/-- The better of two. -/
def MatchType.raise (best found : MatchType) : MatchType :=
  if best.rank < found.rank then found else best

/-- The alternatives of a position; there are none behind the last one. -/
def CmdElement.position (cmd : CmdElement) (index : Nat) : List Word := cmd.strvec.getD index []

/-- The best of the alternatives of all commands, and the commands that have one which matches. -/
def cmdFilter (strict : Bool) (command : Word) (v : List CmdElement) (index : Nat) :
    MatchType × List CmdElement :=
  (v.foldl (fun best cmd => (cmd.position index).foldl
      (fun best str => best.raise (descMatch strict str command)) best)
      .noMatch,
    v.filter fun cmd => (cmd.position index).any fun str => descMatch strict str command ≠ .noMatch)

def cmdFilterByCompletion : Word → List CmdElement → Nat → MatchType × List CmdElement :=
  cmdFilter false

def cmdFilterByString : Word → List CmdElement → Nat → MatchType × List CmdElement := cmdFilter true

/-- What a line comes to. -/
inductive CmdResult where
  | errNoMatch
  | errAmbiguous
  | errIncomplete
  | errExeedArgcMax
  | successDaemon (cmd : CmdElement)
  | invoked (cmd : CmdElement) (argv : List Word)
  | outOfBounds
deriving DecidableEq

/-- The word is another one than the one that matched before. -/
def differs (matched : Option Word) (str : Word) : Bool := matched.any fun found => found ≠ str

/-- One alternative of `is_cmd_ambiguous`: the word that matched so far, and whether this command
does. A result of one makes the line ambiguous, and a result of two makes it match nothing. -/
def ambiguousDesc (command : Word) (type : MatchType) (seen : Option Word × Bool) (str : Word) :
    Except CmdResult (Option Word × Bool) :=
  match type with
  | .exactMatch => .ok (seen.1, seen.2 || (!(cmdOption str || cmdVariable str) && command = str))
  | .partlyMatch =>
    if !(cmdOption str || cmdVariable str) && command.isPrefixOf str then
      if differs seen.1 str then .error .errAmbiguous else .ok (some str, true)
    else .ok seen
  | .rangeMatch =>
    if cmdRangeMatch str command then
      if differs seen.1 str then .error .errAmbiguous else .ok (some str, true)
    else .ok seen
  | .ipv6Match => .ok (seen.1, seen.2 || cmdIpv6 str)
  | .ipv6PrefixMatch =>
    if cmdIpv6PrefixMatch command = .noMatch then .ok seen
    else if cmdIpv6PrefixMatch command = .partlyMatch then .error .errNoMatch
    else .ok (seen.1, true)
  | .ipv4Match => .ok (seen.1, seen.2 || cmdIpv4 str)
  | .ipv4PrefixMatch =>
    if cmdIpv4PrefixMatch command = .noMatch then .ok seen
    else if cmdIpv4PrefixMatch command = .partlyMatch then .error .errNoMatch
    else .ok (seen.1, true)
  | .extendMatch => .ok (seen.1, seen.2 || (cmdOption str || cmdVariable str))
  | .noMatch | .varargMatch => .ok seen

/-- The commands from one on. -/
def ambiguousFrom (command : Word) (index : Nat) (type : MatchType) (matched : Option Word) :
    List CmdElement → Except CmdResult (List CmdElement)
  | [] => .ok []
  | cmd :: rest =>
    match cmd.strvec[index]? with
    | none => .error .outOfBounds
    | some descvec =>
      (descvec.foldlM (ambiguousDesc command type) (matched, false)).bind fun (matched, found) =>
        (ambiguousFrom command index type matched rest).map fun kept => if found then cmd :: kept
          else kept

/-- `is_cmd_ambiguous`: the commands that are kept. -/
def isCmdAmbiguous (command : Word) (v : List CmdElement) (index : Nat) (type : MatchType) :
    Except CmdResult (List CmdElement) :=
  ambiguousFrom command index type none v

def cmdArgcMax : Nat := 25

/-- The loop over the words of a line. -/
def findFrom (filter : Word → List CmdElement → Nat → MatchType × List CmdElement) :
    Nat → MatchType → List CmdElement → List Word →
    Except CmdResult (Nat × MatchType × List CmdElement)
  | index, match_, v, [] => .ok (index, match_, v)
  | index, _, v, command :: rest =>
    let found := filter command v index
    if found.1 = .varargMatch then .ok (index, found.1, found.2)
    else (isCmdAmbiguous command found.2 index found.1).bind fun kept =>
      findFrom filter (index + 1) found.1 kept rest

/-- The only command that the line may stand for. -/
def soleCommand (index : Nat) (match_ : MatchType) (v : List CmdElement) :
    Except CmdResult CmdElement :=
  match v.filter fun cmd => match_ = .varargMatch || cmd.cmdsize ≤ index with
  | [] => .error (if v = [] then .errNoMatch else .errIncomplete)
  | [cmd] => .ok cmd
  | _ => .error .errAmbiguous

/-- A word is put into `argv`. -/
def pushArg (argv : List Word) (word : Word) : Except CmdResult (List Word) :=
  if cmdArgcMax ≤ argv.length then .error .outOfBounds
  else if cmdArgcMax ≤ argv.length + 1 then .error .errExeedArgcMax
  else .ok (argv ++ [word])

/-- The words of the line that are arguments. -/
def argsFrom (strvec : List (List Word)) :
    Bool → Nat → List Word → List Word → Except CmdResult (List Word)
  | _, _, argv, [] => .ok argv
  | true, i, argv, word :: rest => (pushArg argv word).bind fun argv =>
    argsFrom strvec true (i + 1) argv rest
  | false, i, argv, word :: rest =>
    match strvec[i]? with
    | none => .error .outOfBounds
    | some [str] =>
      if cmdVararg str || cmdVariable str || cmdOption str then
        (pushArg argv word).bind fun argv => argsFrom strvec (cmdVararg str) (i + 1) argv rest
      else argsFrom strvec false (i + 1) argv rest
    | some _ => (pushArg argv word).bind fun argv => argsFrom strvec false (i + 1) argv rest

/-- What becomes of a command that was found. -/
def runCommand (cmd : CmdElement) (vline : List Word) : CmdResult :=
  match argsFrom cmd.strvec false 0 [] vline with
  | .error result => result
  | .ok argv => if cmd.daemon then .successDaemon cmd else .invoked cmd argv

def cmdExecute (filter : Word → List CmdElement → Nat → MatchType × List CmdElement)
    (node : List CmdElement) (vline : List Word) : CmdResult :=
  match findFrom filter 0 .noMatch node vline with
  | .error result => result
  | .ok (index, match_, v) =>
    match soleCommand index match_ v with
    | .error result => result
    | .ok cmd => runCommand cmd vline

def cmdExecuteCommand (node : List CmdElement) (vline : List Word) : CmdResult :=
  cmdExecute cmdFilterByCompletion node vline

def cmdExecuteCommandStrict (node : List CmdElement) (vline : List Word) : CmdResult :=
  cmdExecute cmdFilterByString node vline

end Zebra
