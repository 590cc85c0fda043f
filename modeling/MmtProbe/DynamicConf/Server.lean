/-
# The control server: text commands and their binary form

`server.c` receives a text command on a socket.  The parameters of an `update`
command are parsed in place, by moving pointers over the received bytes and
writing NULs into them, and are packed into a buffer that is published on the
bus.  Subscribers unpack it with `parse_command_parameters`.

All accesses to the received bytes are checked, so that a result other than a
`Fault` also says that the parser stayed inside them.
-/

import MmtProbe.DynamicConf.Identities

namespace MmtProbe.DynamicConf

open MmtProbe.Math

/-! ## Constants -/

/-- `MMT_CMD_PARAM_MAX_LENGTH` -/
def cmdParamMaxLength : Nat := 10000

/-- `BUFFER_SIZE`: the size of a `command_t`, two words and its parameters. -/
def bufferSize : Nat := 2 + 2 + cmdParamMaxLength

/-- `NEW_LINE` -/
def newLine : UInt8 := 10

/-- The character between a parameter and its value. -/
def equalSign : UInt8 := 61

def openBrace : UInt8 := 123

def closeBrace : UInt8 := 125

/-! ## Packed parameters -/

/-- `command_param_t`. The data is a pointer into the packed buffer. -/
structure CommandParam where
  ident : Nat
  dataLen : Nat
  data : Nat
deriving DecidableEq, Repr

/-- The loop of `parse_command_parameters`, with `size` free places left in the
list of the caller. -/
def parseCommandParametersFrom (buffer : List UInt8) (bufferLen : Nat) :
    Nat → Nat → Except Fault (List CommandParam)
  | 0, _ => .ok []
  | size + 1, offset =>
      if offset < bufferLen then do
        let ident ← load16 buffer offset
        let dataLen ← load16 buffer (offset + 2)
        let rest ← parseCommandParametersFrom buffer bufferLen size (offset + 2 + 2 + dataLen)
        return ⟨ident, dataLen, offset + 2 + 2⟩ :: rest
      else .ok []

/-- `parse_command_parameters` -/
def parseCommandParameters (buffer : List UInt8) (bufferLen size : Nat) :
    Except Fault (List CommandParam) :=
  parseCommandParametersFrom buffer bufferLen size 0

/-! ## Parsing an update command -/

/-- The reasons for which an update command is refused. -/
inductive UpdateError where
  | noParameter
  | notSurrounded
  | lastNotEnded
  | notSeparated (ident : List UInt8)
  | notSupported (ident : List UInt8)
  | expectValue (ident : List UInt8)
  | invalidValue (reason : List UInt8)
  | hugeValue
deriving DecidableEq, Repr

/-- What the client is told. -/
def UpdateError.text : UpdateError → List UInt8
  | noParameter => bytesOf "The update command must contain at least one parameter\n"
  | notSurrounded => bytesOf "Parameters of update command must be surrounded by \x7b and \x7d"
  | lastNotEnded => bytesOf "The last parameter of update command must ended by \\n\n"
  | notSeparated ident =>
      bytesOf "Parameter and its value (" ++ ident ++ bytesOf ") must be separated by '='\n"
  | notSupported ident => bytesOf "Does not support parameter '" ++ ident ++ bytesOf "'\n"
  | expectValue ident => bytesOf "Expect value for '" ++ ident ++ bytesOf "'\n"
  | invalidValue reason => reason
  | hugeValue => bytesOf "Huge data value for parameters\n"

/-- The loop that counts the characters of a value up to the end of its line, with a
counter of 16 bits. -/
def countValue (memory : List UInt8) (valStr : Nat) : Nat → UInt16 → Except Fault UInt16
  | 0, _ => .error .rounds
  | rounds + 1, valLen => do
      let byte ← load memory (valStr + valLen.toNat)
      if byte = newLine then return valLen else countValue memory valStr rounds (valLen + 1)

/-- The second half of one round of the loop of `_parse_update_parameters`: the
value at `valStr` is checked and the parameter is appended to `parameter`.
Returns the memory, the pointer to what follows and the packed parameters. -/
def parseValue (paramSize : Nat) (identity : Identity) (ident : List UInt8)
    (memory : List UInt8) (valStr : Nat) (parameter : List UInt8) :
    Except Fault (Except UpdateError (List UInt8 × Nat × List UInt8)) := do
  let valLen ← countValue memory valStr (memory.length + 1) 0
  if valLen = 0 then
    return .error (.expectValue ident)
  else
    let memory ← store memory (valStr + valLen.toNat) 0
    let valLen := valLen + 1
    let value ← loadString memory valStr
    match confValidateDataValue identity value with
    | some reason => return .error (.invalidValue reason)
    | none =>
        if paramSize < parameter.length + 2 + 2 + valLen.toNat then
          return .error .hugeValue
        else
          let data ← loadBytes memory valStr valLen.toNat
          return .ok (memory, valStr + valLen.toNat,
            parameter ++ (bytes16 identity.val ++ (bytes16 valLen.toNat ++ data)))

/-- One round of the loop of `_parse_update_parameters`, for the parameter that
starts at `identStr`. -/
def parseParameter (build : Build) (paramSize : Nat) (memory : List UInt8) (identStr : Nat)
    (parameter : List UInt8) :
    Except Fault (Except UpdateError (List UInt8 × Nat × List UInt8)) := do
  let valStr ← scan (fun byte => byte == newLine || byte == equalSign) memory identStr
  let separator ← load memory valStr
  let memory ← store memory valStr 0
  let ident ← loadString memory identStr
  if separator = newLine then
    return .error (.notSeparated ident)
  else
    match confGetIdentityFromString build ident with
    | none => return .error (.notSupported ident)
    | some identity =>
        if identity.dataType = .noSupport then
          return .error (.notSupported ident)
        else
          parseValue paramSize identity ident memory (valStr + 1) parameter

/-- The loop of `_parse_update_parameters`, left at the first NUL found in place
of a parameter. -/
def parseParameters (build : Build) (paramSize : Nat) :
    Nat → List UInt8 → Nat → List UInt8 → Except Fault (Except UpdateError (List UInt8))
  | 0, _, _, _ => .error .rounds
  | rounds + 1, memory, identStr, parameter => do
      match ← parseParameter build paramSize memory identStr parameter with
      | .error reason => return .error reason
      | .ok (memory, next, parameter) =>
          let byte ← load memory next
          if byte = 0 then
            return .ok parameter
          else
            parseParameters build paramSize rounds memory next parameter

/-- The part of `_parse_update_parameters` behind the check of the braces. -/
def parseBetweenBraces (build : Build) (memory : List UInt8) (buffer bufferLen : Nat)
    (paramSize : Nat) : Except Fault (Except UpdateError (List UInt8)) := do
  let buffer := buffer + 1
  let bufferLen := sizeSub bufferLen 2
  let memory ← store memory (index buffer bufferLen) 0
  -- the character after the brace is jumped over, whatever it is
  let buffer := buffer + 1
  let bufferLen := sizeSub bufferLen 1
  let last ← load memory (index buffer (sizeSub bufferLen 1))
  if last ≠ newLine then
    return .error .lastNotEnded
  else
    parseParameters build paramSize memory.length memory buffer []

/-- The check of the braces in `_parse_update_parameters`. -/
def parseBraces (build : Build) (memory : List UInt8) (buffer bufferLen : Nat)
    (paramSize : Nat) : Except Fault (Except UpdateError (List UInt8)) := do
  if bufferLen < 2 then
    return .error .notSurrounded
  else
    let first ← load memory buffer
    if first ≠ openBrace then
      return .error .notSurrounded
    else
      let last ← load memory (index buffer (sizeSub bufferLen 1))
      if last ≠ closeBrace then
        return .error .notSurrounded
      else
        parseBetweenBraces build memory buffer bufferLen paramSize

/-- `_parse_update_parameters`: the packed parameters, or the reason sent to the
client. -/
def parseUpdateParameters (build : Build) (memory : List UInt8) (buffer bufferLen : Nat)
    (paramSize : Nat) : Except Fault (Except UpdateError (List UInt8)) := do
  -- the text is printed first
  let _ ← loadString memory buffer
  if bufferLen = 0 then
    return .error .noParameter
  else
    let last ← load memory (index buffer (sizeSub bufferLen 1))
    if last = 0 then
      parseBraces build memory buffer (sizeSub bufferLen 1) paramSize
    else
      parseBraces build memory buffer bufferLen paramSize

/-- The value that `_parse_update_parameters` returns. -/
def updateReturn : Except UpdateError (List UInt8) → Nat
  | .ok parameter => parameter.length
  | .error _ => 0

/-! ## Processing a command -/

/-- Line 326 of `_processing` writes a NUL over the last byte. -/
def terminate (buffer : List UInt8) : List UInt8 := buffer.set (buffer.length - 1) 0

/-- `IS_CMD` -/
def isCmd (buffer : List UInt8) (cmd : String) : Bool := (bytesOf cmd).isPrefixOf buffer

/-- The commands that the server publishes, with the packed parameters. -/
inductive Command where
  | start
  | stop
  | update (parameter : List UInt8)
deriving DecidableEq, Repr

/-- The `command_t` as it is published: its identifier, the length of its
parameters, and the parameters. -/
def Command.message : Command → List UInt8
  | stop => bytes16 1 ++ bytes16 0
  | start => bytes16 2 ++ bytes16 0
  | update parameter => bytes16 3 ++ (bytes16 parameter.length ++ parameter)

/-- What `_processing` does with the bytes it received. -/
inductive Processed where
  | listParameters
  | publish (command : Command)
  | syntaxError (reason : UpdateError)
  | notSupported
deriving DecidableEq, Repr

/-- `_processing`, once the bytes of a command have been received. -/
def processing (build : Build) (received : List UInt8) : Except Fault Processed := do
  let buffer := terminate received
  if isCmd buffer "ls" then return .listParameters
  else if isCmd buffer "start" then return .publish .start
  else if isCmd buffer "stop" then return .publish .stop
  else if isCmd buffer "update" then
    match ← parseUpdateParameters build buffer 6 (buffer.length - 6) cmdParamMaxLength with
    | .ok parameter => return .publish (.update parameter)
    | .error reason => return .syntaxError reason
  else return .notSupported

end MmtProbe.DynamicConf
