/-
# Loading the configuration from a file

libconfuse reads the file by a table of options with their types and defaults, and
`conf_load_from_file` copies the values block by block into the configuration.  On the
way some values are replaced: a directory gets a slash at its end, a snap length and a
period of 0 stand for a default, and whether there is an output at all is computed from
the channels.

libconfuse is outside.  What the options of a type accept, and what they return, are
parameters; integers are returned as they are written.
-/

import MmtProbe.Configure.Fields
import MmtProbe.Math.Decimal

namespace MmtProbe.Configure

open MmtProbe.Math

/-! ## Values of the file -/

/-- `strtol` in base 10, by which `atoi` and `atol` read a number. -/
def strtol (text : List UInt8) : Int := max (-2 ^ 63) (min (2 ^ 63 - 1) (atoi text))

/-- What libconfuse makes of the text of an option, when it accepts the text. -/
structure Confuse where
  getBool : List UInt8 → Option Bool
  getInt : List UInt8 → Option Int
  /-- A list, given without the braces around it. -/
  getList : List UInt8 → Option (List (List UInt8))
  /-- An integer is the number that is written. -/
  literal : ∀ text n, getInt text = some n → strtol text = n

/-- `strcasecmp` with a word in capital letters. -/
def equalIgnoringCase (text : List UInt8) (word : String) : Bool :=
  text.map (fun byte => if 97 ≤ byte ∧ byte ≤ 122 then byte - 32 else byte) == bytesOf word

/-- The callbacks for options with symbolic values: `conf_parse_input_mode`,
`conf_parse_output_format`, `_conf_parse_socket_type` and `conf_parse_rtt_base`. -/
def EnumField.parse : EnumField → List UInt8 → Option UInt32
  | inputMode, text =>
      if text = bytesOf "ONLINE" then some 0
      else if text = bytesOf "OFFLINE" then some 1
      else none
  | outputsFormat, text =>
      if text = [] ∨ equalIgnoringCase text "CSV" then some 0
      else if equalIgnoringCase text "JSON" then some 1
      else none
  | socketType, text =>
      if text = bytesOf "UNIX" then some 1
      else if text = bytesOf "INTERNET" then some 2
      else if text = bytesOf "BOTH" then some 0
      else none
  | sessionRttBase, text =>
      if text = bytesOf "PREFER_SENDER" then some 3
      else if text = bytesOf "SENDER" then some 1
      else if text = bytesOf "CAPTOR" then some 2
      else none

/-- The texts that the option of a field may have.  With the empty text,
`_cfg_get_dir` reads the byte before its buffer; such directories are left out. -/
def Field.Legal (confuse : Confuse) (text : List UInt8) : Field → Prop
  | .bool _ => (confuse.getBool text).isSome
  | .uint16 _ | .uint32 _ => (confuse.getInt text).isSome
  | .enum field => (field.parse text).isSome
  | .text field => field.isDirectory → text ≠ []
  | .channels _ | .protocols => (confuse.getList text).isSome

/-- A file that can be loaded. -/
structure CfgFile (confuse : Confuse) where
  /-- The text of each option that is set. -/
  value : String → Option (List UInt8)
  /-- The titles of the `reconstruct-data` blocks; the probe aborts when there are
  none. -/
  titles : List String
  legal : ∀ field option text, Field.option field = some option → value option = some text →
    field.Legal confuse text
  blocks : ∀ field option block, Field.option field = some option →
    field.block = some block → (value option).isSome → block.title ∈ titles
  titles_ne : titles ≠ []

/-! ## The parts of a file -/

/-- `_cfg_get_dir`: a directory ends with a slash. -/
def cfgGetDir (text : List UInt8) : List UInt8 :=
  if text.getLast? = some 47 then text else text ++ [47]

/-- `CONF_OUTPUT_CHANNEL_FILE` -/
def channelFile : UInt32 := 1

/-- One round of the loop of `_parse_output_channel`: the beginning of the name decides,
and other names are reported. -/
def addOutputChannel (out : UInt32) (name : List UInt8) : UInt32 :=
  if (bytesOf "file").isPrefixOf name then out ||| channelFile
  else if (bytesOf "kafka").isPrefixOf name then out ||| 4
  else if (bytesOf "redis").isPrefixOf name then out ||| 2
  else if (bytesOf "mongo").isPrefixOf name then out ||| 8
  else if (bytesOf "socke").isPrefixOf name then out ||| 16
  else out

/-- `_parse_output_channel` -/
def parseOutputChannel (names : List (List UInt8)) : UInt32 :=
  names.foldl addOutputChannel channelFile

/-- What is made of a number after it was cut to 16 bits: `_parse_input_source` and the
end of `conf_load_from_file`. -/
def Uint16Field.normalise (field : Uint16Field) (value : UInt16) : UInt16 :=
  match field with
  | inputSnapLen => if value = 0 then 65535 else value
  | cpuMemFrequency => if value = 0 then 5 else value
  | _ => value

namespace CfgFile

variable {confuse : Confuse} (file : CfgFile confuse)

/-- `cfg_getbool` -/
def cfgGetbool (field : BoolField) : Bool :=
  match field.option.bind file.value with
  | none => field.default
  | some text => (confuse.getBool text).getD field.default

/-- `cfg_getint`, for an option of type `CFG_INT`. -/
def cfgGetint (option : String) (default : Int) : Int :=
  match file.value option with
  | none => default
  | some text => (confuse.getInt text).getD default

/-- `cfg_getint`, for an option with a callback. -/
def cfgGetEnum (field : EnumField) : UInt32 :=
  match file.value field.option with
  | none => field.default
  | some text => (field.parse text).getD field.default

/-- `_cfg_get_str` or `_cfg_get_dir` -/
def cfgGetStr (field : TextField) : Option (List UInt8) :=
  match file.value field.option with
  | none => field.default.map bytesOf
  | some text => some (if field.isDirectory then cfgGetDir text else text)

/-- `cfg_getnstr` on all the elements of a list. -/
def cfgGetList (option : String) : List (List UInt8) :=
  match file.value option with
  | none => []
  | some text => (confuse.getList text).getD []

/-- One of the five output channels is enabled. -/
def someOutput : Bool :=
  file.cfgGetbool .fileIsEnable || file.cfgGetbool .mongodbIsEnable ||
    file.cfgGetbool .redisIsEnable || file.cfgGetbool .kafkaIsEnable ||
    file.cfgGetbool .socketIsEnable

end CfgFile

/-- `conf_load_from_file`.  The padding is what the allocated memory holds. -/
def confLoadFromFile {confuse : Confuse} (file : CfgFile confuse) (padding : UInt16) : Conf where
  bool
    | .outputsIsEnable => file.someOutput
    | .behaviourIsSampled => true
    | field => file.cfgGetbool field
  uint16 field := field.normalise (UInt16.ofInt (file.cfgGetint field.option field.default))
  uint32 field := UInt32.ofInt (file.cfgGetint field.option field.default)
  enum field := file.cfgGetEnum field
  text field := file.cfgGetStr field
  channels field := parseOutputChannel (file.cfgGetList field.option)
  protocols :=
    let protocols := file.cfgGetList "dump-pcap.protocols"
    protocols.take (UInt16.ofNat protocols.length).toNat
  hasBlock block := decide (block.title ∈ file.titles)
  cachePadding := padding

/-! ## Plain texts -/

/-- What libconfuse makes of `true` and `false`, of digits, and of words between commas. -/
def plainConfuse : Confuse where
  getBool text :=
    if text = bytesOf "true" then some true
    else if text = bytesOf "false" then some false
    else none
  getInt text := (readDecimal text).map fun _ => strtol text
  getList text := some (text.splitOn 44)
  literal text n read := by
    rw [Option.map_eq_some_iff] at read
    rcases read with ⟨_, _, hread⟩
    exact hread

/-- A file that sets no option. -/
def emptyFile : CfgFile plainConfuse where
  value _ := none
  titles := ["ftp", "http"]
  legal _ _ _ _ := nofun
  blocks _ _ _ _ _ := nofun
  titles_ne := by decide

end MmtProbe.Configure
