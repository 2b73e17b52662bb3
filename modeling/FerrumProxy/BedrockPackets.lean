import FerrumProxy.ByteStrings
import FerrumProxy.TextStrings

/-!
# Bedrock pings and pongs

The offline RakNet packets that the UDP paths recognise and rewrite.  The text of an unconnected
pong is a list of fields separated by semicolons.
-/

namespace FerrumProxy

open Str Wire

def raknetOfflineMessageId : Bytes :=
  [0x00, 0xff, 0xff, 0x00, 0xfe, 0xfe, 0xfe, 0xfe, 0xfd, 0xfd, 0xfd, 0xfd, 0x12, 0x34, 0x56, 0x78]

def unconnectedPongStringOffset : Nat := 35

def isOfflinePing (payload : Bytes) : Bool :=
  if payload.length < 25 then false
  else
    (payload.head? == some 0x01 || payload.head? == some 0x02) &&
      (payload.drop 9).take 16 == raknetOfflineMessageId

def isOpenConnectionRequest1 (payload : Bytes) : Bool :=
  decide (18 ≤ payload.length) && payload.head? == some 0x05 &&
    (payload.drop 1).take 16 == raknetOfflineMessageId

/-- The text of a pong, and where it ends in the packet. -/
structure ParsedPong where
  motd : Text
  stringEnd : Nat

def parseUnconnectedPong (payload : Bytes) : Option ParsedPong :=
  if payload.length < unconnectedPongStringOffset || payload.head? != some 0x1c then none
  else if (payload.drop 17).take 16 != raknetOfflineMessageId then none
  else
    let stringLength := (u16FromBE (payload.getD 33 0) (payload.getD 34 0)).toNat
    let stringEnd := unconnectedPongStringOffset + stringLength
    if payload.length < stringEnd then none
    else
      (fromUtf8 ((payload.drop unconnectedPongStringOffset).take stringLength)).map
        (fun motd => ⟨motd, stringEnd⟩)

def isUnconnectedPong (payload : Bytes) : Bool := (parseUnconnectedPong payload).isSome

def rewriteUnconnectedPongTimestamp (payload timestamp : Bytes) : Option Bytes :=
  if payload.length < unconnectedPongStringOffset || payload.head? != some 0x1c ||
      timestamp.length != 8 then none
  else some (payload.take 1 ++ timestamp ++ payload.drop 9)

def rewriteUnconnectedPongPorts (payload : Bytes) (listenerPort : UInt16) : Option Bytes :=
  match parseUnconnectedPong payload with
  | none => none
  | some parsed =>
    let parts := split ';' parsed.motd
    if parts.length < 11 then none
    else
      let port := (toString listenerPort.toNat).toList
      if parts[10]? == some port && (parts[11]?).all (· == port) then none
      else
        let rewritten := [';'].intercalate ((parts.set 10 port).set 11 port)
        let motdBytes := toUtf8 rewritten
        if 65535 < motdBytes.length then none
        else
          some (payload.take 33 ++ u16ToBE (UInt16.ofNat motdBytes.length) ++ motdBytes ++
            payload.drop parsed.stringEnd)

/-- `char::is_control`: the category Cc. -/
def isControl (ch : Char) : Bool :=
  decide (ch.toNat < 0x20) || (decide (0x7f ≤ ch.toNat) && decide (ch.toNat ≤ 0x9f))

/-- `strip_prefix` and then `strip_suffix` of a quotation mark. -/
def stripQuotes : Text → Option Text
  | '"' :: inner => if inner.getLast? = some '"' then some inner.dropLast else none
  | _ => none

def sanitizeMotdField (value : Text) : Text :=
  let trimmed := trim value
  let unquoted := (stripQuotes trimmed).getD trimmed
  [' '].intercalate (splitWhitespace (unquoted.map (fun ch => if isControl ch then ' ' else ch)))

def stripUnconnectedPongNameQuotes (payload : Bytes) : Option Bytes :=
  match parseUnconnectedPong payload with
  | none => none
  | some parsed =>
    let parts := split ';' parsed.motd
    match (parts[1]?).bind stripQuotes with
    | none => none
    | some stripped =>
      let rewritten := [';'].intercalate (parts.set 1 stripped)
      let motdBytes := toUtf8 rewritten
      if 65535 < motdBytes.length then none
      else
        some (payload.take 33 ++ u16ToBE (UInt16.ofNat motdBytes.length) ++ motdBytes ++
          payload.drop parsed.stringEnd)

def rebuildUnconnectedPong (payload : Bytes) (parsed : ParsedPong) (motd : Text) : Option Bytes :=
  let motdBytes := toUtf8 motd
  if 65535 < motdBytes.length then none
  else
    some (payload.take 33 ++ u16ToBE (UInt16.ofNat motdBytes.length) ++ motdBytes ++
      payload.drop parsed.stringEnd)

/-- The two lines of the server list, cleaned; an empty one shows the other. -/
def normalizeMotdLines (originalPrimary originalSecondary : Text) : Text × Text :=
  let primary := sanitizeMotdField originalPrimary
  let secondary := sanitizeMotdField originalSecondary
  if primary.isEmpty && !secondary.isEmpty then (secondary, secondary)
  else if secondary.isEmpty && !primary.isEmpty then (primary, primary)
  else (primary, secondary)

def normalizeUnconnectedPongMotd (payload : Bytes) : Option Bytes :=
  match parseUnconnectedPong payload with
  | none => none
  | some parsed =>
    let parts := split ';' parsed.motd
    if parts.length < 8 then none
    else
      let originalPrimary := parts.getD 1 []
      let originalSecondary := parts.getD 7 []
      let (primary, secondary) := normalizeMotdLines originalPrimary originalSecondary
      if primary == originalPrimary && secondary == originalSecondary then none
      else
        rebuildUnconnectedPong payload parsed
          ([';'].intercalate ((parts.set 1 primary).set 7 secondary))

end FerrumProxy
