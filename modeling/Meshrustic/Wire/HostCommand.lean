import Meshrustic.RateLimit.Limiter
import Meshrustic.Wire.Frame
import Mathlib.Data.List.DropRight

/-!
# Commands of the host (`mesh-routing/src/host_command.rs`)

The host sends lines over a serial port, a byte at a time: `BCAST text` and `UNI !id text`. A line
is gathered in a buffer of fixed size, then parsed: blanks around it and around the text are
dropped, the id is hexadecimal.

The gatherer is not described by running it: `LineAccumulator.after` computes its state from the
bytes of the unfinished line alone.

Results:
* `feed_lines`: from any stream, the lines between its newlines, without carriage returns, or the
  report that a line was too long;
* `parseLine_broadcast`, `parseLine_unicast`: a command that is written out is read back;
* `host_command_faithful`: so what the host sends is what is understood, and what is accepted fits
  a frame.
-/
namespace Meshrustic.Wire

open Meshrustic.Protobuf (Buffer varintSize varintSize_le_of_lt)
open Meshrustic.RateLimit (TEXT_MESSAGE_APP)
open Meshrustic.Routing (MAX_PACKET_PAYLOAD)
open Meshrustic.Channel (ascii)

def MAX_COMMAND_TEXT : Nat := MAX_PACKET_PAYLOAD - 7
def MAX_COMMAND_LINE : Nat := MAX_COMMAND_TEXT + 32

/-- mirrors crates/mesh-routing/src/host_command.rs:11-20 -/
inductive HostCommand where
  | broadcast (text : Buffer MAX_COMMAND_TEXT)
  | unicast (toNode : UInt32) (text : Buffer MAX_COMMAND_TEXT)
  deriving DecidableEq

def HostCommand.text : HostCommand → Buffer MAX_COMMAND_TEXT
  | .broadcast text => text
  | .unicast _ text => text

/-- mirrors crates/mesh-routing/src/host_command.rs:22-29 -/
inductive CommandError where
  | lineTooLong
  | unknownKeyword
  | missingNodeId
  | malformedNodeId
  | emptyMessage
  deriving DecidableEq, Repr

def KEYWORD_BCAST : Bytes := ascii "BCAST"
def KEYWORD_UNI : Bytes := ascii "UNI"

def NEWLINE : UInt8 := 0x0A
def CARRIAGE_RETURN : UInt8 := 0x0D
def SPACE : UInt8 := 0x20
def TAB : UInt8 := 0x09
def BANG : UInt8 := 0x21

/-! ## Parsing -/

/-- mirrors crates/mesh-routing/src/host_command.rs:34-36 -/
def isAsciiSpace (b : UInt8) : Bool := b == SPACE || b == TAB

/-- mirrors crates/mesh-routing/src/host_command.rs:38-54 -/
def trim (bytes : Bytes) : Bytes := (bytes.dropWhile isAsciiSpace).rdropWhile isAsciiSpace

/-- mirrors crates/mesh-routing/src/host_command.rs:56-63 -/
def stripKeyword (line keyword : Bytes) : Option Bytes := do
  let rest ← keyword.isPrefixOf? line
  match rest.head? with
  | none => some rest
  | some b => if isAsciiSpace b then some rest else none

/-- mirrors crates/mesh-routing/src/host_command.rs:65-71 -/
def splitFirstWord (bytes : Bytes) : Bytes × Bytes :=
  let bytes := trim bytes
  match bytes.findIdx? isAsciiSpace with
  | some i => (bytes.take i, trim (bytes.drop (i + 1)))
  | none => (bytes, [])

/-- mirrors crates/mesh-routing/src/host_command.rs:84-89 -/
def hexDigit (b : UInt8) : Option UInt8 :=
  if 48 ≤ b && b ≤ 57 then some (b - 48)
  else if 97 ≤ b && b ≤ 102 then some (b - 97 + 10)
  else if 65 ≤ b && b ≤ 70 then some (b - 65 + 10)
  else none

def pushHexDigit (value : UInt32) (b : UInt8) : Option UInt32 :=
  (hexDigit b).map fun digit => (value <<< 4) ||| digit.toUInt32

/-- mirrors crates/mesh-routing/src/host_command.rs:73-93 -/
def parseHexNodeId (token : Bytes) : Option UInt32 :=
  let token :=
    (((ascii "!").isPrefixOf? token).or (((ascii "0x").isPrefixOf? token).or
      ((ascii "0X").isPrefixOf? token))).getD token
  if token.isEmpty || 8 < token.length then none else token.foldlM pushHexDigit 0

/-- mirrors crates/mesh-routing/src/host_command.rs:95-100 -/
def toFixedText (bytes : Bytes) : Except CommandError (Buffer MAX_COMMAND_TEXT) :=
  if h : bytes.length ≤ MAX_COMMAND_TEXT then .ok ⟨bytes, h⟩ else .error .lineTooLong

/-- mirrors crates/mesh-routing/src/host_command.rs:102-131 -/
def parseLine (line : Bytes) : Except CommandError HostCommand :=
  if MAX_COMMAND_LINE < line.length then .error .lineTooLong
  else
    let line := trim line
    match stripKeyword line KEYWORD_BCAST with
    | some rest =>
      let text := trim rest
      if text.isEmpty then .error .emptyMessage
      else (toFixedText text).map .broadcast
    | none =>
      match stripKeyword line KEYWORD_UNI with
      | some rest =>
        let (idToken, text) := splitFirstWord rest
        if idToken.isEmpty then .error .missingNodeId
        else
          match parseHexNodeId idToken with
          | none => .error .malformedNodeId
          | some toNode =>
            if text.isEmpty then .error .emptyMessage
            else (toFixedText text).map (.unicast toNode)
      | none => .error .unknownKeyword

/-! ## Gathering lines -/

/-- mirrors crates/mesh-routing/src/host_command.rs:133-136 -/
structure LineAccumulator (cap : Nat) where
  buf : Buffer cap := .empty
  overflowed : Bool := false

namespace LineAccumulator

variable {cap : Nat}

/-- mirrors crates/mesh-routing/src/host_command.rs:139-144 -/
def new : LineAccumulator cap := {}

/-- mirrors crates/mesh-routing/src/host_command.rs:151-166 -/
def pushByte (acc : LineAccumulator cap) (b : UInt8) :
    Option (Except CommandError (Buffer cap)) × LineAccumulator cap :=
  if b == NEWLINE then
    (some (if acc.overflowed then .error .lineTooLong else .ok acc.buf), new)
  else if b != CARRIAGE_RETURN then
    match acc.buf.push b with
    | some buf => (none, { acc with buf })
    | none => (none, { acc with overflowed := true })
  else (none, acc)

/-- The results of a stream of bytes. -/
def feed (acc : LineAccumulator cap) : Bytes → List (Except CommandError (Buffer cap))
  | [] => []
  | b :: rest => (acc.pushByte b).1.toList ++ (acc.pushByte b).2.feed rest

/-- What is kept of a line. -/
def kept (line : Bytes) : Bytes := line.filter (· != CARRIAGE_RETURN)

/-- The state in a line of which `bytes` were kept. -/
def after (bytes : Bytes) : LineAccumulator cap where
  buf := ⟨bytes.take cap, List.length_take_le _ _⟩
  overflowed := decide (cap < bytes.length)

/-- The result of a line. -/
def verdict (line : Bytes) : Except CommandError (Buffer cap) :=
  if h : line.length ≤ cap then .ok ⟨line, h⟩ else .error .lineTooLong

/-- The lines of a stream that have ended, without carriage returns. -/
def lines (stream : Bytes) : List Bytes := (stream.splitOn NEWLINE).dropLast.map kept

theorem after_nil : (after [] : LineAccumulator cap) = new := by
  simp [after, new, Table.empty]

/-- A byte of the line, while there is room and when there is none. -/
theorem pushByte_after (bytes : Bytes) {b : UInt8} (hb : b ≠ NEWLINE) (hreturn : b ≠ CARRIAGE_RETURN) :
    (after bytes : LineAccumulator cap).pushByte b = (none, after (bytes ++ [b])) := by
  unfold pushByte
  rw [if_neg (by simpa using hb), if_pos (by simpa using hreturn)]
  by_cases hroom : bytes.length < cap
  · have hpush : (after bytes : LineAccumulator cap).buf.push b =
        some (after (bytes ++ [b])).buf := by
      unfold Table.push after
      have htake : bytes.take cap = bytes := List.take_of_length_le (by omega)
      have hmore : (bytes ++ [b]).take cap = bytes ++ [b] := by
        apply List.take_of_length_le
        rw [List.length_append, List.length_singleton]
        omega
      simp only [htake, hmore, dif_pos hroom]
    rw [hpush]
    have hno : decide (cap < bytes.length) = decide (cap < (bytes ++ [b]).length) := by
      rw [List.length_append, List.length_singleton, decide_eq_false (by omega),
        decide_eq_false (by omega)]
    simp [after, hno]
  · have hpush : (after bytes : LineAccumulator cap).buf.push b = none := by
      unfold Table.push after
      rw [dif_neg]
      simp only [List.length_take]
      omega
    have hsame : (bytes ++ [b]).take cap = bytes.take cap :=
      List.take_append_of_le_length (by omega)
    rw [hpush]
    simp only [after, hsame, List.length_append, List.length_singleton]
    rw [decide_eq_true (show cap < bytes.length + 1 by omega)]

theorem pushByte_return (acc : LineAccumulator cap) :
    acc.pushByte CARRIAGE_RETURN = (none, acc) := rfl

/-- The end of a line. -/
theorem pushByte_newline (bytes : Bytes) :
    (after bytes : LineAccumulator cap).pushByte NEWLINE = (some (verdict bytes), new) := by
  unfold pushByte verdict
  rw [if_pos (beq_self_eq_true _)]
  by_cases hfits : bytes.length ≤ cap
  · simp [after, hfits, List.take_of_length_le hfits]
  · simp [after, hfits, Nat.lt_of_not_le hfits]

/-- Any byte that does not end the line. -/
theorem pushByte_kept (line : Bytes) {b : UInt8} (hb : b ≠ NEWLINE) :
    (after (kept line) : LineAccumulator cap).pushByte b = (none, after (kept (line ++ [b]))) := by
  by_cases hreturn : b = CARRIAGE_RETURN
  · have hkept : kept (line ++ [b]) = kept line := by simp [kept, hreturn]
    rw [hkept, hreturn, pushByte_return]
  · have hkept : kept (line ++ [b]) = kept line ++ [b] := by simp [kept, hreturn]
    rw [hkept, pushByte_after _ hb hreturn]

theorem feed_after (stream : Bytes) {line : Bytes} (hline : NEWLINE ∉ line) :
    (after (kept line) : LineAccumulator cap).feed stream =
      (lines (line ++ stream)).map verdict := by
  induction stream generalizing line with
  | nil =>
    unfold feed lines
    rw [List.append_nil, List.splitOn_eq_singleton hline]
    rfl
  | cons b rest ih =>
    unfold feed
    by_cases hb : b = NEWLINE
    · subst hb
      have hfirst : lines (line ++ NEWLINE :: rest) = kept line :: lines rest := by
        unfold lines
        rw [List.splitOn_append_cons_self_of_not_mem hline,
          List.dropLast_cons_of_ne_nil (List.splitOn_ne_nil _ _), List.map_cons]
      have hrest := ih (List.not_mem_nil (a := NEWLINE))
      rw [show kept [] = [] from rfl, after_nil, List.nil_append] at hrest
      rw [pushByte_newline, hfirst, hrest]
      rfl
    · have hopen : NEWLINE ∉ line ++ [b] := by simp [hline, Ne.symm hb]
      have hrest := ih hopen
      rw [List.append_assoc, List.singleton_append] at hrest
      rw [pushByte_kept line hb, hrest]
      rfl

/-- Whatever arrives, the lines of it are reported one by one, each by itself. -/
theorem feed_lines (stream : Bytes) :
    (new : LineAccumulator cap).feed stream = (lines stream).map verdict := by
  have hfeed : (after (kept []) : LineAccumulator cap).feed stream =
      (lines ([] ++ stream)).map verdict := feed_after stream List.not_mem_nil
  rwa [show kept [] = [] from rfl, after_nil, List.nil_append] at hfeed

end LineAccumulator

/-! ## Blanks -/

theorem isAsciiSpace_space : isAsciiSpace SPACE = true := rfl

/-- No blank at either end. -/
structure Bare (bytes : Bytes) : Prop where
  head : ∀ b, bytes.head? = some b → isAsciiSpace b = false
  last : ∀ b, bytes.getLast? = some b → isAsciiSpace b = false

theorem trim_bare {bytes : Bytes} (h : Bare bytes) : trim bytes = bytes := by
  unfold trim
  have hhead : bytes.dropWhile isAsciiSpace = bytes := by
    cases bytes with
    | nil => rfl
    | cons b rest => rw [List.dropWhile_cons_of_neg (by simp [h.head b rfl])]
  rw [hhead, List.rdropWhile_eq_self_iff]
  intro hne
  simp [h.last _ (List.getLast?_eq_getLast_of_ne_nil hne)]

theorem no_space_of_all {bytes : Bytes} (h : bytes.all (fun b => !isAsciiSpace b) = true) :
    ∀ b ∈ bytes, isAsciiSpace b = false := by
  intro b hb
  simpa using List.all_eq_true.mp h b hb

theorem in_line_of_all {bytes : Bytes}
    (h : bytes.all (fun b => b != NEWLINE && b != CARRIAGE_RETURN) = true) :
    ∀ b ∈ bytes, b ≠ NEWLINE ∧ b ≠ CARRIAGE_RETURN := by
  intro b hb
  simpa using List.all_eq_true.mp h b hb

theorem trim_space (bytes : Bytes) : trim (SPACE :: bytes) = trim bytes := by
  unfold trim
  rw [List.dropWhile_cons_of_pos rfl]

/-- A word in front of a text. -/
theorem Bare.prepend {word bytes : Bytes} (hword : word ≠ []) (hbytes : bytes ≠ [])
    (hspace : ∀ b ∈ word, isAsciiSpace b = false) (h : Bare bytes) :
    Bare (word ++ SPACE :: bytes) where
  head b hb := by
    rw [List.head?_append_of_ne_nil _ hword] at hb
    exact hspace b (List.mem_of_mem_head? hb)
  last b hb := by
    rw [List.getLast?_append_of_ne_nil _ (List.cons_ne_nil _ _),
      List.getLast?_cons_of_ne_nil hbytes] at hb
    exact h.last b hb

theorem stripKeyword_space (keyword rest : Bytes) :
    stripKeyword (keyword ++ SPACE :: rest) keyword = some (SPACE :: rest) := by
  have hstripped : keyword.isPrefixOf? (keyword ++ SPACE :: rest) = some (SPACE :: rest) :=
    List.isPrefixOf?_eq_some_iff_append_eq.mpr rfl
  unfold stripKeyword
  rw [hstripped]
  rfl

/-- The first word of a text that has one. -/
theorem splitFirstWord_prepend {word bytes : Bytes} (hword : word ≠ []) (hbytes : bytes ≠ [])
    (hspace : ∀ b ∈ word, isAsciiSpace b = false) (h : Bare bytes) :
    splitFirstWord (SPACE :: (word ++ SPACE :: bytes)) = (word, bytes) := by
  have hfind : (word ++ SPACE :: bytes).findIdx? isAsciiSpace = some word.length := by
    rw [List.findIdx?_append, List.findIdx?_eq_none_iff.mpr (by simpa using hspace),
      List.findIdx?_cons, if_pos isAsciiSpace_space]
    simp
  unfold splitFirstWord
  rw [trim_space, trim_bare (h.prepend hword hbytes hspace)]
  simp only [hfind]
  rw [List.take_left, ← List.drop_drop, List.drop_left, List.drop_one, List.tail_cons, trim_bare h]

/-! ## Node ids -/

/-- A hexadecimal digit as it is written. -/
structure HexChar where
  value : Fin 16
  upper : Bool

def HexChar.byte (c : HexChar) : UInt8 :=
  if c.value < 10 then UInt8.ofNat (48 + c.value)
  else UInt8.ofNat ((if c.upper then 55 else 87) + c.value)

/-- The number that digits spell. -/
def numberOf (digits : List HexChar) : Nat := digits.foldl (fun n c => 16 * n + c.value) 0

/-- Up to eight hexadecimal digits, of either case, that spell the id of a node. -/
structure SpellsId (token : Bytes) (node : UInt32) : Prop where
  digits : ∃ digits : List HexChar, digits ≠ [] ∧ digits.length ≤ 8 ∧
    token = digits.map HexChar.byte ∧ numberOf digits = node.toNat

/-- `k` digits, in lower case. -/
def hexDigits : Nat → Nat → List HexChar
  | 0, _ => []
  | k + 1, n => hexDigits k (n / 16) ++ [⟨Fin.ofNat 16 n, false⟩]

/-- How the id of a node is usually written, behind a `!`. -/
def nodeIdText (node : UInt32) : Bytes := (hexDigits 8 node.toNat).map HexChar.byte

theorem hexDigit_byte (c : HexChar) : hexDigit c.byte = some (UInt8.ofNat c.value) := by
  obtain ⟨value, upper⟩ := c
  revert value upper
  decide

theorem byte_not_space (c : HexChar) : isAsciiSpace c.byte = false := by
  obtain ⟨value, upper⟩ := c
  revert value upper
  decide

theorem byte_in_line (c : HexChar) : c.byte ≠ NEWLINE ∧ c.byte ≠ CARRIAGE_RETURN := by
  obtain ⟨value, upper⟩ := c
  revert value upper
  decide

theorem length_hexDigits (k n : Nat) : (hexDigits k n).length = k := by
  induction k generalizing n with
  | zero => rfl
  | succ k ih => simp [hexDigits, ih]

theorem numberOf_hexDigits (k n : Nat) : numberOf (hexDigits k n) = n % 16 ^ k := by
  induction k generalizing n with
  | zero => rw [Nat.pow_zero, Nat.mod_one]; rfl
  | succ k ih =>
    have hlast : numberOf (hexDigits (k + 1) n) = 16 * numberOf (hexDigits k (n / 16)) + n % 16 := by
      simp [hexDigits, numberOf, List.foldl_append]
    rw [hlast, ih, Nat.pow_succ, Nat.mul_comm _ 16, Nat.mod_mul, Nat.add_comm]

theorem spellsId_nodeIdText (node : UInt32) : SpellsId (nodeIdText node) node where
  digits := by
    have hlen := length_hexDigits 8 node.toNat
    refine ⟨hexDigits 8 node.toNat, ?_, Nat.le_of_eq hlen, rfl, ?_⟩
    · intro hnil
      rw [hnil] at hlen
      cases hlen
    · rw [numberOf_hexDigits]
      exact Nat.mod_eq_of_lt node.toNat_lt

theorem SpellsId.length_le {token : Bytes} {node : UInt32} (h : SpellsId token node) :
    token.length ≤ 8 := by
  obtain ⟨digits, -, hfew, rfl, -⟩ := h.digits
  rw [List.length_map]
  exact hfew

theorem SpellsId.no_space {token : Bytes} {node : UInt32} (h : SpellsId token node) :
    ∀ b ∈ BANG :: token, isAsciiSpace b = false := by
  obtain ⟨digits, -, -, rfl, -⟩ := h.digits
  refine List.forall_mem_cons.mpr ⟨rfl, fun b hb => ?_⟩
  obtain ⟨c, -, rfl⟩ := List.mem_map.mp hb
  exact byte_not_space c

theorem SpellsId.in_line {token : Bytes} {node : UInt32} (h : SpellsId token node) :
    ∀ b ∈ token, b ≠ NEWLINE ∧ b ≠ CARRIAGE_RETURN := by
  obtain ⟨digits, -, -, rfl, -⟩ := h.digits
  intro b hb
  obtain ⟨c, -, rfl⟩ := List.mem_map.mp hb
  exact byte_in_line c

/-- A digit shifted in. -/
theorem pushHexDigit_byte {value : UInt32} (hvalue : value.toNat < 2 ^ 28) (c : HexChar) :
    pushHexDigit value c.byte = some (UInt32.ofNat (16 * value.toNat + c.value)) := by
  have hc := c.value.isLt
  have hdigit : (UInt8.ofNat c.value).toUInt32.toNat = c.value := by
    rw [UInt8.toNat_toUInt32, UInt8.toNat_ofNat', Nat.mod_eq_of_lt (by omega)]
  have hshift : (value <<< 4).toNat = 2 ^ 4 * value.toNat := by
    rw [UInt32.toNat_shiftLeft]
    simp only [UInt32.reduceToNat, Nat.reduceMod, Nat.shiftLeft_eq]
    omega
  have hor : ((value <<< 4) ||| (UInt8.ofNat c.value).toUInt32).toNat = 16 * value.toNat + c.value := by
    rw [UInt32.toNat_or, hshift, hdigit, ← Nat.two_pow_add_eq_or_of_lt (by omega)]
  unfold pushHexDigit
  rw [hexDigit_byte, Option.map_some, ← hor, UInt32.ofNat_toNat]

/-- Digits shifted in behind `j` others. -/
theorem foldlM_pushHexDigit {digits : List HexChar} {j : Nat} (hfew : j + digits.length ≤ 8)
    {v : UInt32} (hvalue : v.toNat < 16 ^ j) :
    (digits.map HexChar.byte).foldlM pushHexDigit v =
      some (UInt32.ofNat (digits.foldl (fun n c => 16 * n + c.value) v.toNat)) := by
  induction digits generalizing j v with
  | nil =>
    rw [List.map_nil, List.foldlM_nil, List.foldl_nil, UInt32.ofNat_toNat]
    rfl
  | cons c rest ih =>
    rw [List.length_cons] at hfew
    have hc := c.value.isLt
    have hpow : 16 ^ j ≤ 16 ^ 7 := Nat.pow_le_pow_right (by omega) (by omega)
    have hnext : 16 * v.toNat + c.value < 16 ^ (j + 1) := by
      rw [Nat.pow_succ]
      omega
    have htoNat : (UInt32.ofNat (16 * v.toNat + c.value)).toNat = 16 * v.toNat + c.value := by
      rw [UInt32.toNat_ofNat', Nat.mod_eq_of_lt (by omega)]
    have hrest := ih (j := j + 1) (v := UInt32.ofNat (16 * v.toNat + c.value)) (by omega)
      (by rw [htoNat]; exact hnext)
    rw [htoNat] at hrest
    rw [List.map_cons, List.foldlM_cons, pushHexDigit_byte (by omega), List.foldl_cons]
    exact hrest

/-- Behind a `!`, the digits of an id are read as that id. -/
theorem parseHexNodeId_spelled {token : Bytes} {node : UInt32} (h : SpellsId token node) :
    parseHexNodeId (BANG :: token) = some node := by
  obtain ⟨digits, hne, hfew, rfl, hnumber⟩ := h.digits
  have hstripped : (ascii "!").isPrefixOf? (BANG :: digits.map HexChar.byte) =
      some (digits.map HexChar.byte) := List.isPrefixOf?_eq_some_iff_append_eq.mpr rfl
  unfold parseHexNodeId
  rw [hstripped, Option.some_or, Option.getD_some]
  dsimp only
  rw [if_neg (by simpa [hne] using hfew)]
  have hfold := foldlM_pushHexDigit (j := 0) (v := 0) (by rw [Nat.zero_add]; exact hfew)
    (by decide)
  rw [hfold]
  change some (UInt32.ofNat (numberOf digits)) = _
  rw [hnumber, UInt32.ofNat_toNat]

/-! ## Commands as they are sent -/

/-- What can be sent as a text: not empty nor too long, in one line, and without blanks around. -/
structure Sendable (text : Bytes) : Prop where
  nonempty : text ≠ []
  fits : text.length ≤ MAX_COMMAND_TEXT
  inLine : ∀ b ∈ text, b ≠ NEWLINE ∧ b ≠ CARRIAGE_RETURN
  bare : Bare text

def broadcastLine (text : Bytes) : Bytes := KEYWORD_BCAST ++ SPACE :: text

def unicastLine (token text : Bytes) : Bytes :=
  KEYWORD_UNI ++ SPACE :: ((BANG :: token) ++ SPACE :: text)

section

variable {text : Bytes} (h : Sendable text)

theorem toFixedText_fits (h : Sendable text) : toFixedText text = .ok ⟨text, h.fits⟩ := by
  unfold toFixedText
  rw [dif_pos h.fits]

include h

theorem parseLine_broadcast :
    parseLine (broadcastLine text) = .ok (.broadcast ⟨text, h.fits⟩) := by
  have hlen : (broadcastLine text).length ≤ MAX_COMMAND_LINE := by
    have hfits := h.fits
    change text.length + 6 ≤ MAX_COMMAND_TEXT + 32
    omega
  have hline : Bare (broadcastLine text) :=
    h.bare.prepend (by decide) h.nonempty (no_space_of_all (by decide))
  unfold parseLine
  rw [if_neg (Nat.not_lt.mpr hlen), trim_bare hline]
  dsimp only
  rw [show stripKeyword (broadcastLine text) KEYWORD_BCAST = some (SPACE :: text) from
    stripKeyword_space KEYWORD_BCAST text]
  dsimp only
  rw [trim_space, trim_bare h.bare, if_neg (by simpa using h.nonempty), toFixedText_fits h]
  rfl

theorem parseLine_unicast {token : Bytes} {node : UInt32} (htoken : SpellsId token node) :
    parseLine (unicastLine token text) = .ok (.unicast node ⟨text, h.fits⟩) := by
  have hspace : ∀ b ∈ BANG :: token, isAsciiSpace b = false := htoken.no_space
  have hword : Bare ((BANG :: token) ++ SPACE :: text) :=
    h.bare.prepend (List.cons_ne_nil _ _) h.nonempty hspace
  have hlen : (unicastLine token text).length ≤ MAX_COMMAND_LINE := by
    have hfits := h.fits
    have hfew := htoken.length_le
    have hlong : (unicastLine token text).length = token.length + text.length + 6 := by
      simp [unicastLine, show KEYWORD_UNI.length = 3 from rfl]
      omega
    change _ ≤ MAX_COMMAND_TEXT + 32
    omega
  have hline : Bare (unicastLine token text) :=
    hword.prepend (by decide) (List.cons_ne_nil _ _) (no_space_of_all (by decide))
  unfold parseLine
  rw [if_neg (Nat.not_lt.mpr hlen), trim_bare hline]
  dsimp only
  rw [show stripKeyword (unicastLine token text) KEYWORD_BCAST = none from rfl,
    show stripKeyword (unicastLine token text) KEYWORD_UNI =
      some (SPACE :: ((BANG :: token) ++ SPACE :: text)) from stripKeyword_space KEYWORD_UNI _]
  dsimp only
  rw [splitFirstWord_prepend (List.cons_ne_nil _ _) h.nonempty hspace h.bare]
  dsimp only
  rw [if_neg (by simp), parseHexNodeId_spelled htoken]
  dsimp only
  rw [if_neg (by simpa using h.nonempty), toFixedText_fits h]
  rfl

theorem broadcastLine_in_line : ∀ b ∈ broadcastLine text, b ≠ NEWLINE ∧ b ≠ CARRIAGE_RETURN := by
  unfold broadcastLine
  rw [List.forall_mem_append, List.forall_mem_cons]
  exact ⟨in_line_of_all (by decide), by decide, h.inLine⟩

theorem unicastLine_in_line {token : Bytes} {node : UInt32} (htoken : SpellsId token node) :
    ∀ b ∈ unicastLine token text, b ≠ NEWLINE ∧ b ≠ CARRIAGE_RETURN := by
  unfold unicastLine
  rw [List.forall_mem_append, List.forall_mem_cons, List.forall_mem_append, List.forall_mem_cons,
    List.forall_mem_cons]
  exact ⟨in_line_of_all (by decide), by decide, ⟨by decide, htoken.in_line⟩, by decide, h.inLine⟩

end

/-! ## The channel -/

/-- What is understood of a stream, command by command.
mirrors boards/nrf52840/src/usb/task.rs:107-122 -/
def received (cap : Nat) (stream : Bytes) : List (Except CommandError HostCommand) :=
  ((LineAccumulator.new : LineAccumulator cap).feed stream).map fun result =>
    result.bind fun line => parseLine line.rows

/-- A command in a line of its own. -/
theorem received_line {cap : Nat} (hcap : MAX_COMMAND_LINE ≤ cap) {line : Bytes}
    {command : HostCommand} (hline : ∀ b ∈ line, b ≠ NEWLINE ∧ b ≠ CARRIAGE_RETURN)
    (hparse : parseLine line = .ok command) :
    received cap (line ++ [NEWLINE]) = [.ok command] := by
  have hlen : line.length ≤ MAX_COMMAND_LINE := by
    by_contra hlong
    unfold parseLine at hparse
    rw [if_pos (Nat.lt_of_not_le hlong)] at hparse
    cases hparse
  have hno : NEWLINE ∉ line := fun hmem => (hline NEWLINE hmem).1 rfl
  have hkept : LineAccumulator.kept line = line :=
    List.filter_eq_self.mpr fun b hb => bne_iff_ne.mpr (hline b hb).2
  have hlines : LineAccumulator.lines (line ++ [NEWLINE]) = [line] := by
    unfold LineAccumulator.lines
    rw [List.splitOn_append_cons_self_of_not_mem hno, List.splitOn_nil]
    simp [hkept]
  unfold received
  rw [LineAccumulator.feed_lines, hlines]
  simp only [List.map_cons, List.map_nil, LineAccumulator.verdict, dif_pos (Nat.le_trans hlen hcap)]
  exact congrArg ([·]) hparse

/-- A text that is accepted fits a frame, with seven bytes around it. -/
theorem dataSize_text (text : Buffer MAX_COMMAND_TEXT) (okToMqtt : Bool) :
    dataSize TEXT_MESSAGE_APP text.rows { bitfield := .ours okToMqtt } ≤ MAX_PACKET_PAYLOAD := by
  have hle : text.rows.length ≤ 232 := text.le
  have hsize : varintSize (UInt32.ofNat text.rows.length) ≤ 2 := by
    apply varintSize_le_of_lt (k := 2) (by omega)
    rw [UInt32.toNat_ofNat', Nat.mod_eq_of_lt (by omega)]
    omega
  have hportnum : varintSize TEXT_MESSAGE_APP = 1 := by decide
  unfold dataSize
  rw [hportnum]
  change _ ≤ 239
  simp
  omega

theorem host_command_faithful {cap : Nat} (hcap : MAX_COMMAND_LINE ≤ cap) :
    (∀ stream, (LineAccumulator.new : LineAccumulator cap).feed stream =
      (LineAccumulator.lines stream).map LineAccumulator.verdict) ∧
    (∀ text (h : Sendable text),
      received cap (broadcastLine text ++ [NEWLINE]) = [.ok (.broadcast ⟨text, h.fits⟩)]) ∧
    (∀ node token, SpellsId token node → ∀ text (h : Sendable text),
      received cap (unicastLine token text ++ [NEWLINE]) = [.ok (.unicast node ⟨text, h.fits⟩)]) ∧
    (∀ node, SpellsId (nodeIdText node) node) ∧
    (∀ line command, parseLine line = .ok command →
      ∀ E toNode fromNode packetId channelHash hopLimit hopStart wantAck key okToMqtt nextHop,
        (buildAppWireFrame E toNode fromNode packetId channelHash hopLimit hopStart wantAck key
          TEXT_MESSAGE_APP command.text.rows { bitfield := .ours okToMqtt } nextHop).isSome) := by
  refine ⟨LineAccumulator.feed_lines, fun text h => ?_, fun node token htoken text h => ?_,
    spellsId_nodeIdText, ?_⟩
  · exact received_line hcap (broadcastLine_in_line h) (parseLine_broadcast h)
  · exact received_line hcap (unicastLine_in_line h htoken) (parseLine_unicast h htoken)
  · intro line command _ E toNode fromNode packetId channelHash hopLimit hopStart wantAck key
      okToMqtt nextHop
    rw [buildAppWireFrame_fits E toNode fromNode packetId channelHash hopLimit hopStart wantAck key
      _ _ _ nextHop (dataSize_text command.text okToMqtt)]
    rfl

/-- A text as it may be sent. -/
def probe : Bytes := ascii "ack-pass probe"

theorem sendable_probe : Sendable probe where
  nonempty := by decide
  fits := by decide
  inLine := in_line_of_all (by decide)
  bare :=
    { head := by
        intro b hb
        cases hb
        rfl
      last := by
        intro b hb
        cases hb
        rfl }

/-- The probe to one node, its id written in eight digits. -/
theorem host_command_faithful_probe :
    received MAX_COMMAND_LINE (ascii "UNI !046b553a ack-pass probe" ++ [NEWLINE]) =
      [.ok (.unicast 0x046b553a ⟨probe, sendable_probe.fits⟩)] :=
  (host_command_faithful (Nat.le_refl _)).2.2.1 0x046b553a (nodeIdText 0x046b553a)
    ((host_command_faithful (Nat.le_refl MAX_COMMAND_LINE)).2.2.2.1 _) probe sendable_probe

end Meshrustic.Wire
