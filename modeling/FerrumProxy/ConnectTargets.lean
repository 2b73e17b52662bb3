import FerrumProxy.JsValues
import FerrumProxy.RelayAuth
import FerrumProxy.TextLines

/-!
# The target of a `CONNECT` command

A client asks the relay for a port with the words `CONNECT token:host:port`, or `CONNECT host:port`
without a token.  The command-line client writes the target in `buildRelayTarget`, the desktop
client in `start_sharing`; the relay cuts it at the first two colons.
-/

namespace FerrumProxy

open Str

/-! ## What is meant and what is read -/

/-- The parts of a target as the relay should read them; a relay may want a token. -/
def heardParts (authConfig : SharedServiceConfig) (token : Option Text) (host : Text)
    (port : UInt16) : Except Text (Option Text × Text × UInt16) :=
  if token.isNone && !authConfig.allowAnonymous then .error "ERROR Token required\n".toList
  else .ok (token, host, port)

/-- A token without colons, if any, a host and a port. -/
structure ShareTarget where
  token : Option Text
  host : Text
  port : UInt16
  token_plain : ∀ value, token = some value → IsWord value ∧ ':' ∉ value
  host_word : IsWord host

namespace ShareTarget

/-- The parts, joined with colons. -/
def text (target : ShareTarget) : Text :=
  match target.token with
  | some token => token ++ ':' :: (target.host ++ ':' :: Nat.toDigits 10 target.port.toNat)
  | none => target.host ++ ':' :: Nat.toDigits 10 target.port.toNat

def heard (authConfig : SharedServiceConfig) (target : ShareTarget) :
    Except Text (Option Text × Text × UInt16) :=
  heardParts authConfig target.token target.host target.port

end ShareTarget

/-- The line that a client sends. -/
def connectCommand (target : Text) : Text := "CONNECT".toList ++ ' ' :: target ++ ['\n']

/-- `handle_connect` up to the parts of the target. -/
def connectParts (authConfig : SharedServiceConfig) (request : Text) :
    Except Text (Option Text × Text × UInt16) :=
  match splitWhitespace request with
  | _ :: target :: _ => connectTarget authConfig target
  | _ => .error "ERROR Usage: CONNECT <token:host:port> or CONNECT <host:port>\n".toList

theorem digit_visible {c : Char} {n : Nat} (h : c ∈ Nat.toDigits 10 n) :
    isWhitespace c = false := by
  have hdigit : c.isDigit = true := Nat.isDigit_of_mem_toDigits (by decide) (by decide) h
  exact isWhitespace_of_isAlphanum (by simp [Char.isAlphanum, hdigit])

theorem notMem_toDigits {c : Char} (hc : c.isDigit = false) (n : Nat) :
    c ∉ Nat.toDigits 10 n := by
  intro hmem
  have hdigit : c.isDigit = true := Nat.isDigit_of_mem_toDigits (by decide) (by decide) hmem
  rw [hc] at hdigit
  cases hdigit

open List

theorem splitn_one {first second : Text} (hfirst : ':' ∉ first) (hsecond : ':' ∉ second) :
    splitn ':' 3 (first ++ ':' :: second) = [first, second] := by
  simp [splitn, splitOnce_append hfirst, splitOnce_of_notMem hsecond]

theorem splitn_two {first second : Text} (hfirst : ':' ∉ first) (hsecond : ':' ∉ second)
    (third : Text) :
    splitn ':' 3 (first ++ ':' :: (second ++ ':' :: third)) = [first, second, third] := by
  simp [splitn, splitOnce_append hfirst, splitOnce_append hsecond]

namespace ShareTarget

variable {authConfig : SharedServiceConfig} (target : ShareTarget)

theorem text_word : IsWord target.text := by
  have hdigits : ∀ c ∈ Nat.toDigits 10 target.port.toNat, isWhitespace c = false :=
    fun _ => digit_visible
  have hcolon : isWhitespace ':' = false := by decide
  have hhost := target.host_word.2
  unfold text
  split
  · rename_i token htoken
    have hword := (target.token_plain token htoken).1.2
    refine ⟨by simp, ?_⟩
    simp only [forall_mem_append, forall_mem_cons]
    exact ⟨hword, hcolon, hhost, hcolon, hdigits⟩
  · refine ⟨by simp, ?_⟩
    simp only [forall_mem_append, forall_mem_cons]
    exact ⟨hhost, hcolon, hdigits⟩

/-- The target is the second word of the request. -/
theorem parts_eq :
    connectParts authConfig (trim (connectCommand target.text)) =
      connectTarget authConfig target.text := by
  have hcommand : IsWord "CONNECT".toList := by decide
  have hrequest : trim (connectCommand target.text) = "CONNECT".toList ++ ' ' :: target.text :=
    trim_command hcommand target.text_word
  have hwords : splitWhitespace ("CONNECT".toList ++ ' ' :: target.text) =
      ["CONNECT".toList, target.text] := by
    rw [splitWhitespace_cons hcommand, splitWhitespace_word target.text_word]
  unfold connectParts
  rw [hrequest, hwords]

theorem parts_of_plain_host (h : ':' ∉ target.host) :
    connectTarget authConfig target.text = target.heard authConfig := by
  have hport : parseU16 (Nat.toDigits 10 target.port.toNat) = some target.port :=
    parseU16_toDigits target.port
  cases htoken : target.token with
  | none =>
    rw [text, htoken, connectTarget, splitn_one h (notMem_toDigits (by decide) _), heard,
      heardParts, htoken]
    cases authConfig.allowAnonymous <;> simp [hport]
  | some token =>
    obtain ⟨hword, hcolon⟩ := target.token_plain token htoken
    have htrim : trim token = token := trim_eq_self hword.2
    have hhost : trim target.host = target.host := trim_eq_self target.host_word.2
    rw [text, htoken, connectTarget]
    simp only [splitn_two hcolon h, htrim, hhost, hport, heard, heardParts, htoken]
    simp [hword.1]

/-- With a colon in the host, a part of the host is taken for the token or for the whole host. -/
theorem parts_of_colon (h : ':' ∈ target.host) :
    connectTarget authConfig target.text ≠ target.heard authConfig := by
  obtain ⟨before, after, hhost, hbefore⟩ := eq_append_cons_of_mem h
  cases htoken : target.token with
  | none =>
    -- the first two colons make three parts, and the first of them is the token
    obtain ⟨second, third, hrest, hsecond⟩ := eq_append_cons_of_mem
      (show ':' ∈ after ++ ':' :: Nat.toDigits 10 target.port.toNat by simp)
    rw [text, htoken, hhost, append_assoc, cons_append, hrest, connectTarget,
      splitn_two hbefore hsecond]
    intro heq
    rw [heard, heardParts, htoken] at heq
    by_cases hempty : (trim before).isEmpty = true <;>
      cases hallow : authConfig.allowAnonymous <;> simp [hempty, hallow] at heq
  | some token =>
    -- the host is cut at its first colon
    obtain ⟨hword, hcolon⟩ := target.token_plain token htoken
    have htrim : trim token = token := trim_eq_self hword.2
    rw [text, htoken, hhost, append_assoc, cons_append, connectTarget, splitn_two hcolon hbefore]
    intro heq
    rw [heard, heardParts, htoken] at heq
    simp only [htrim, List.isEmpty_iff, hword.1, if_false, Option.isNone_some, Bool.false_and,
      Bool.false_eq_true, Except.ok.injEq, Prod.mk.injEq] at heq
    have hlength := (trim_isInfix before).length_le
    rw [heq.2.1, hhost, length_append, length_cons] at hlength
    omega

/-- The relay reads what is meant exactly if the host has no colon. -/
theorem heard_iff :
    connectParts authConfig (trim (connectCommand target.text)) = target.heard authConfig ↔
      ':' ∉ target.host := by
  rw [target.parts_eq]
  exact ⟨fun heq hcolon => target.parts_of_colon hcolon heq, target.parts_of_plain_host⟩

end ShareTarget

/-! ## The command-line client -/

/-- What a client shares. -/
inductive ProtocolMode where
  | tcp
  | udp
  | both
  deriving DecidableEq

/-- A protocol other than the three is none. -/
structure RelayShareClientOptions where
  relayAddress : Text
  token : Option Text
  protocol : Option ProtocolMode
  localHost : Text
  tcpLocalPort : Option ℚ
  udpLocalPort : Option ℚ

/-- A number that is no integer from 1 to 65535 is no port. -/
def isPort : Option ℚ → Bool
  | some value => Js.isInteger value && decide (1 ≤ value) && decide (value ≤ 65535)
  | none => false

/-- The texts that JavaScript gives to numbers; integers are decimal. -/
structure NumberTexts where
  toText : ℚ → Text
  toText_nat : ∀ n : Nat, n < 2 ^ 53 → toText n = Nat.toDigits 10 n

namespace RelayShareClientOptions

variable (options : RelayShareClientOptions)

def validate : Except String Unit :=
  if (Js.trim options.relayAddress).isEmpty then .error "relay address is required"
  else if options.protocol.isNone then .error "protocol must be tcp, udp, or both"
  else if options.protocol ≠ some .udp ∧ isPort options.tcpLocalPort = false then
    .error "TCP local port is required"
  else if options.protocol ≠ some .tcp ∧ isPort options.udpLocalPort = false then
    .error "UDP local port is required"
  else .ok ()

def portForAllocation : Option ℚ :=
  if options.protocol = some .udp then options.udpLocalPort else options.tcpLocalPort

/-- `token?.trim()`, unless it is empty. -/
def trimmedToken : Option Text :=
  (options.token.map Js.trim).filter (fun token => !token.isEmpty)

def buildRelayTarget (numbers : NumberTexts) : Except String Text :=
  match options.portForAllocation with
  | none => .error "local port is required"
  | some port =>
    if port = 0 then .error "local port is required"
    else
      match options.trimmedToken with
      | some token => .ok (token ++ ':' :: (options.localHost ++ ':' :: numbers.toText port))
      | none => .ok (options.localHost ++ ':' :: numbers.toText port)

/-- The token has no colon and no blank, and the host is a word. -/
structure Plain : Prop where
  token : ∀ value, options.token = some value → ∀ c ∈ value,
    c ≠ ':' ∧ isWhitespace c = false ∧ Js.isWhitespace c = false
  host : IsWord options.localHost

/-- The token that is meant; an empty one is none. -/
def meantToken : Option Text := options.token.filter (fun token => !token.isEmpty)

variable {options}

theorem exists_port {value : Option ℚ} (h : isPort value = true) :
    ∃ port : UInt16, value = some (port.toNat : ℚ) ∧ port.toNat ≠ 0 := by
  cases value with
  | none => cases h
  | some value =>
    simp only [isPort, Bool.and_eq_true, decide_eq_true_eq] at h
    obtain ⟨⟨hinteger, hlow⟩, hhigh⟩ := h
    obtain ⟨n, rfl⟩ := Js.exists_nat_of_isInteger hinteger (zero_le_one.trans hlow)
    have hlow' : 1 ≤ n := by exact_mod_cast hlow
    have hhigh' : n ≤ 65535 := by exact_mod_cast hhigh
    have hsame : (UInt16.ofNat n).toNat = n := by
      rw [UInt16.toNat_ofNat']
      omega
    exact ⟨UInt16.ofNat n, by rw [hsame], by omega⟩

theorem isPort_of_validate (h : options.validate = .ok ()) :
    isPort options.portForAllocation = true := by
  unfold validate at h
  (repeat' split at h) <;> cases h
  rename_i _ _ htcp hudp
  unfold portForAllocation
  split <;> rename_i hprotocol <;> by_contra hport
  · exact hudp ⟨by simp [hprotocol], by simpa using hport⟩
  · exact htcp ⟨hprotocol, by simpa using hport⟩

theorem trimmedToken_eq (h : options.Plain) : options.trimmedToken = options.meantToken := by
  unfold trimmedToken meantToken
  cases htoken : options.token with
  | none => rfl
  | some token =>
    have hvisible : ∀ c ∈ token, Js.isWhitespace c = false := fun c hc =>
      (h.token token htoken c hc).2.2
    rw [Option.map_some, Js.trim_eq_self hvisible]

/-- What the options mean. -/
def share (h : options.Plain) (port : UInt16) : ShareTarget where
  token := options.meantToken
  host := options.localHost
  port := port
  token_plain := by
    intro value hvalue
    obtain ⟨htoken, hne⟩ := Option.filter_eq_some_iff.mp hvalue
    exact ⟨⟨by simpa using hne, fun c hc => (h.token value htoken c hc).2.1⟩,
      fun hcolon => (h.token value htoken ':' hcolon).1 rfl⟩
  host_word := h.host

theorem buildRelayTarget_eq (numbers : NumberTexts) (hvalid : options.validate = .ok ())
    (hplain : options.Plain) :
    ∃ port : UInt16, options.portForAllocation = some (port.toNat : ℚ) ∧
      options.buildRelayTarget numbers = .ok (share hplain port).text := by
  obtain ⟨port, hport, hzero⟩ := exists_port (isPort_of_validate hvalid)
  have hrational : (port.toNat : ℚ) ≠ 0 := by exact_mod_cast hzero
  have hdigits : numbers.toText port.toNat = Nat.toDigits 10 port.toNat :=
    numbers.toText_nat port.toNat (by have := port.toNat_lt; omega)
  refine ⟨port, hport, ?_⟩
  rw [buildRelayTarget, hport, trimmedToken_eq hplain]
  simp only [if_neg hrational, hdigits, ShareTarget.text, share]
  cases options.meantToken <;> rfl

end RelayShareClientOptions

/-! ## The desktop client -/

/-- What `start_sharing` reads of the configuration. -/
structure ClientConfig where
  token : Text
  tcpEnabled : Bool
  udpEnabled : Bool
  localHost : Text
  tcpLocalPort : UInt16
  udpLocalPort : UInt16

def defaultLocalHost : Text := "127.0.0.1".toList

def normalizedLocalHost (host : Text) : Text :=
  if (trim host).isEmpty then defaultLocalHost else trim host

namespace ClientConfig

variable (config : ClientConfig)

def localPort : UInt16 := if config.tcpEnabled then config.tcpLocalPort else config.udpLocalPort

/-- `start_sharing` up to the target. -/
def target : Except String Text :=
  if !config.tcpEnabled && !config.udpEnabled then .error "Enable TCP, UDP, or both"
  else
    let host := normalizedLocalHost config.localHost
    let port := Nat.toDigits 10 config.localPort.toNat
    if (trim config.token).isEmpty then .ok (host ++ ':' :: port)
    else .ok (trim config.token ++ ':' :: (host ++ ':' :: port))

/-- A token and a host without blanks, the token without a colon. -/
structure Plain : Prop where
  token : ∀ c ∈ config.token, c ≠ ':' ∧ isWhitespace c = false
  host : IsWord config.localHost

/-- The token that is meant; an empty one is none. -/
def meantToken : Option Text := if config.token.isEmpty then none else some config.token

variable {config}

/-- What the configuration means. -/
def share (h : config.Plain) : ShareTarget where
  token := config.meantToken
  host := config.localHost
  port := config.localPort
  token_plain := by
    intro value hvalue
    obtain ⟨hne, hsame⟩ := Option.ite_none_left_eq_some.mp hvalue
    cases hsame
    exact ⟨⟨by simpa using hne, fun c hc => (h.token c hc).2⟩,
      fun hcolon => (h.token ':' hcolon).1 rfl⟩
  host_word := h.host

theorem target_eq (henabled : (config.tcpEnabled || config.udpEnabled) = true)
    (hplain : config.Plain) : config.target = .ok (share hplain).text := by
  have htoken : trim config.token = config.token :=
    trim_eq_self (fun c hc => (hplain.token c hc).2)
  have hhost : trim config.localHost = config.localHost := trim_eq_self hplain.host.2
  have hsome : config.localHost.isEmpty = false := isEmpty_eq_false_iff.mpr hplain.host.1
  have hnot : (!config.tcpEnabled && !config.udpEnabled) = false := by
    rw [← Bool.not_or, henabled]
    rfl
  rw [target, hnot]
  simp only [Bool.false_eq_true, if_false, normalizedLocalHost, htoken, hhost, hsome,
    ShareTarget.text, share, meantToken]
  split <;> rfl

end ClientConfig

/-- **What a `CONNECT` carries.**  Of what both clients write, the relay reads the token, the host
and the port that were meant exactly if the host has no colon. -/
theorem connect_carries_iff (numbers : NumberTexts) (authConfig : SharedServiceConfig) :
    (∀ options : RelayShareClientOptions, options.validate = .ok () → options.Plain →
      ∃ (target : Text) (port : UInt16), options.buildRelayTarget numbers = .ok target ∧
        options.portForAllocation = some (port.toNat : ℚ) ∧
        (connectParts authConfig (trim (connectCommand target)) =
            heardParts authConfig options.meantToken options.localHost port ↔
          ':' ∉ options.localHost)) ∧
      ∀ config : ClientConfig, (config.tcpEnabled || config.udpEnabled) = true → config.Plain →
        ∃ target, config.target = .ok target ∧
          (connectParts authConfig (trim (connectCommand target)) =
              heardParts authConfig config.meantToken config.localHost config.localPort ↔
            ':' ∉ config.localHost) := by
  constructor
  · intro options hvalid hplain
    obtain ⟨port, hport, htarget⟩ :=
      RelayShareClientOptions.buildRelayTarget_eq numbers hvalid hplain
    exact ⟨_, port, htarget, hport, ShareTarget.heard_iff _⟩
  · intro config henabled hplain
    exact ⟨_, ClientConfig.target_eq henabled hplain, ShareTarget.heard_iff _⟩

/-- Decimal digits. -/
def decimalTexts : NumberTexts where
  toText value := Nat.toDigits 10 value.num.toNat
  toText_nat n _ := by simp

/-- A server on this host, shared with a token. -/
def localhostOptions (localHost : Text) : RelayShareClientOptions where
  relayAddress := "relay:7000".toList
  token := some "secret".toList
  protocol := some .tcp
  localHost := localHost
  tcpLocalPort := some 25565
  udpLocalPort := none

theorem localhostOptions_plain {localHost : Text} (h : IsWord localHost) :
    (localhostOptions localHost).Plain where
  token := by
    intro value hvalue
    cases hvalue
    have hall : "secret".toList.all (fun c =>
        c ≠ ':' ∧ isWhitespace c = false ∧ Js.isWhitespace c = false) = true := by decide
    exact fun c hc => of_decide_eq_true (List.all_eq_true.mp hall c hc)
  host := h

theorem localhostOptions_valid (localHost : Text) :
    (localhostOptions localHost).validate = .ok () := by
  have haddress : (Js.trim "relay:7000".toList).isEmpty = false := by decide
  have hport : isPort (some 25565) = true := by decide
  unfold RelayShareClientOptions.validate
  rw [if_neg, if_neg, if_neg, if_neg]
  · exact fun h => h.1 rfl
  · exact fun h => Bool.false_ne_true (h.2.symm.trans hport)
  · exact Bool.false_ne_true
  · exact fun h => Bool.false_ne_true (haddress.symm.trans h)

/-- A host name without a colon. -/
theorem connect_carries_localhost :
    ∃ target port,
      (localhostOptions "localhost".toList).buildRelayTarget decimalTexts = .ok target ∧
      connectParts {} (trim (connectCommand target)) =
        heardParts {} (some "secret".toList) "localhost".toList port := by
  obtain ⟨target, port, htarget, _, hiff⟩ := (connect_carries_iff decimalTexts {}).1
    (localhostOptions "localhost".toList) (localhostOptions_valid _)
    (localhostOptions_plain (by decide))
  exact ⟨target, port, htarget, hiff.mpr (by decide)⟩

/-- With the loopback address of IPv6 for a local host, the relay reads an empty host and no
port. -/
theorem ipv6_host_misread :
    (localhostOptions "::1".toList).validate = .ok () ∧ (localhostOptions "::1".toList).Plain ∧
      (localhostOptions "::1".toList).buildRelayTarget decimalTexts =
        .ok "secret:::1:25565".toList ∧
      connectParts {} (trim (connectCommand "secret:::1:25565".toList)) =
        .ok (some "secret".toList, [], 0) :=
  ⟨localhostOptions_valid _, localhostOptions_plain (by decide), by decide, by decide⟩

end FerrumProxy
