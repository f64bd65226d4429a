import SimplefinBridge.Consumers
import SimplefinBridge.Ids
import SimplefinBridge.Library.TextCodecs

/-!
# Access URLs and Basic authentication headers

A claim is answered with an Access URL that carries the consumer's user and
secret, percent-encoded.  A client decodes them and sends them back as the
base64 token of an `Authorization` header.  `parse_authorization` says that
`parseBasicAuth` reads the same user and secret from that header.
-/

namespace SimplefinBridge

open TextCodecs

/-! ## Percent-encoding is undone -/

/-- A hexadecimal digit is read back. -/
theorem hexValue_hexDigit : ∀ n < 16, hexValue (hexDigit n) = some n := by decide +kernel

/-- How `escapedBytes` reads an encoded character. -/
def escapedChar (c : Char) : List (Nat ⊕ Char) :=
  if isUriUnreserved c then [.inr c]
  else ((String.utf8EncodeChar c).map UInt8.toNat).map .inl

/-- An escape is a byte. -/
theorem escapedBytes_escape {a b : Char} {high low : Nat} (ha : hexValue a = some high)
    (hb : hexValue b = some low) (rest : List Char) :
    escapedBytes ('%' :: a :: b :: rest) =
      (escapedBytes rest).map (Sum.inl (high * 16 + low) :: ·) := by
  rw [escapedBytes.eq_1, ha, hb]
  cases escapedBytes rest with
  | none => rfl
  | some pieces => rfl

/-- Any other character is itself. -/
theorem escapedBytes_plain {c : Char} (h : c ≠ '%') (rest : List Char) :
    escapedBytes (c :: rest) = (escapedBytes rest).map (Sum.inr c :: ·) := by
  rw [escapedBytes.eq_3]
  · exact fun _ _ _ hc => absurd hc h
  · exact h

/-- The escapes of some bytes are the bytes. -/
theorem escapedBytes_percent (bytes : List UInt8) (rest : List Char) :
    escapedBytes ((bytes.flatMap fun byte =>
        ['%', hexDigit (byte.toNat / 16), hexDigit (byte.toNat % 16)]) ++ rest) =
      (escapedBytes rest).map ((bytes.map UInt8.toNat).map Sum.inl ++ ·) := by
  induction bytes with
  | nil => simp
  | cons byte bytes ih =>
      have hbyte := byte.toNat_lt
      have hhigh := hexValue_hexDigit (byte.toNat / 16) (by omega)
      have hlow := hexValue_hexDigit (byte.toNat % 16) (by omega)
      have hsum : byte.toNat / 16 * 16 + byte.toNat % 16 = byte.toNat := by omega
      rw [List.flatMap_cons, List.append_assoc, List.cons_append, List.cons_append,
        List.cons_append, List.nil_append]
      rw [escapedBytes_escape hhigh hlow, ih, hsum]
      cases escapedBytes rest with
      | none => rfl
      | some pieces => rfl

/-- An encoded character is read as its bytes, or as itself, -/
theorem escapedBytes_encodedChar (c : Char) (rest : List Char) :
    escapedBytes ((if isUriUnreserved c then [c] else percentEncode c) ++ rest) =
      (escapedBytes rest).map (escapedChar c ++ ·) := by
  unfold escapedChar
  by_cases hplain : isUriUnreserved c = true
  · have hpercent : c ≠ '%' := by
      rintro rfl
      revert hplain
      decide
    rw [if_pos hplain, if_pos hplain]
    exact escapedBytes_plain hpercent rest
  · rw [if_neg hplain, if_neg hplain]
    exact escapedBytes_percent _ rest

/-- and so is an encoded text. -/
theorem escapedBytes_encoded (chars : List Char) :
    escapedBytes (chars.flatMap fun c => if isUriUnreserved c then [c] else percentEncode c) =
      some (chars.flatMap escapedChar) := by
  induction chars with
  | nil => rfl
  | cons c chars ih =>
      rw [List.flatMap_cons, escapedBytes_encodedChar, ih, List.flatMap_cons, Option.map_some]

/-- A continuation byte that is not the last of its sequence. -/
theorem decodeBytes_inner {missing code least byte : Nat} (hlow : 0x80 ≤ byte)
    (hhigh : byte < 0xC0) (rest : List (Nat ⊕ Char)) :
    decodeBytes (some ⟨missing + 2, code, least⟩) (.inl byte :: rest) =
      decodeBytes (some ⟨missing + 1, code * 64 + (byte - 0x80), least⟩) rest := by
  rw [decodeBytes.eq_4]
  dsimp only
  rw [if_neg (by omega), if_pos (by omega)]
  rfl

/-- The last byte of a character's sequence. -/
theorem decodeBytes_last {code least byte : Nat} {c : Char} (hlow : 0x80 ≤ byte)
    (hhigh : byte < 0xC0) (hcode : code * 64 + (byte - 0x80) = c.toNat) (hleast : least ≤ c.toNat)
    (rest : List (Nat ⊕ Char)) :
    decodeBytes (some ⟨1, code, least⟩) (.inl byte :: rest) =
      (decodeBytes none rest).map (c :: ·) := by
  rw [decodeBytes.eq_4]
  dsimp only
  rw [hcode, if_neg (by omega), if_neg (by omega), if_pos ⟨hleast, c.valid⟩, Char.ofNat_toNat]

/-- A leading byte opens a sequence. -/
theorem decodeBytes_open {byte : Nat} {sequence : Sequence} (hbyte : 0x80 ≤ byte)
    (h : openSequence byte = some sequence) (rest : List (Nat ⊕ Char)) :
    decodeBytes none (.inl byte :: rest) = decodeBytes (some sequence) rest := by
  rw [decodeBytes.eq_3, if_neg (by omega), h]

/-- The bytes of a character decode to it, -/
theorem decodeBytes_escapedChar (c : Char) (rest : List (Nat ⊕ Char)) :
    decodeBytes none (escapedChar c ++ rest) = (decodeBytes none rest).map (c :: ·) := by
  unfold escapedChar
  by_cases hplain : isUriUnreserved c = true
  · rw [if_pos hplain]
    rfl
  · rw [if_neg hplain]
    rcases utf8EncodeChar_cases c with ⟨hn, hbytes⟩ | ⟨hl, hn, hbytes⟩ | ⟨hl, hn, hbytes⟩ |
      ⟨hl, hn, hbytes⟩ <;> rw [hbytes] <;>
      simp only [List.map_cons, List.map_nil, List.cons_append, List.nil_append]
    · rw [decodeBytes.eq_3, if_pos hn, Char.ofNat_toNat]
    · have hopen : openSequence (0xC0 + c.toNat / 64) = some ⟨1, c.toNat / 64, 0x80⟩ := by
        unfold openSequence
        rw [if_neg (by omega), if_pos (by omega), Nat.add_sub_cancel_left]
      rw [decodeBytes_open (by omega) hopen,
        decodeBytes_last (c := c) (by omega) (by omega) (by omega) (by omega)]
    · have hopen : openSequence (0xE0 + c.toNat / 4096) = some ⟨2, c.toNat / 4096, 0x800⟩ := by
        unfold openSequence
        rw [if_neg (by omega), if_neg (by omega), if_pos (by omega), Nat.add_sub_cancel_left]
      rw [decodeBytes_open (by omega) hopen, decodeBytes_inner (by omega) (by omega),
        decodeBytes_last (c := c) (by omega) (by omega) (by omega) (by omega)]
    · have hopen : openSequence (0xF0 + c.toNat / 262144) = some ⟨3, c.toNat / 262144, 0x10000⟩ := by
        unfold openSequence
        rw [if_neg (by omega), if_neg (by omega), if_neg (by omega), if_pos (by omega),
          Nat.add_sub_cancel_left]
      rw [decodeBytes_open (by omega) hopen, decodeBytes_inner (by omega) (by omega),
        decodeBytes_inner (by omega) (by omega),
        decodeBytes_last (c := c) (by omega) (by omega) (by omega) (by omega)]

/-- and those of a text to the text. -/
theorem decodeBytes_escaped (chars : List Char) :
    decodeBytes none (chars.flatMap escapedChar) = some chars := by
  induction chars with
  | nil => rfl
  | cons c chars ih => rw [List.flatMap_cons, decodeBytes_escapedChar, ih, Option.map_some]

/-- **Percent-encoding round trip.** -/
theorem decodeURIComponent_encode (text : String) :
    decodeURIComponent (encodeURIComponent text) = .ok text := by
  unfold decodeURIComponent encodeURIComponent
  rw [String.toList_ofList, escapedBytes_encoded, Option.bind_some, decodeBytes_escaped]
  simp only [String.ofList_toList]

/-- The characters of an encoded text. -/
def isEncodedChar (c : Char) : Bool := isUriUnreserved c || c = '%'

/-- Hexadecimal digits need no escape. -/
theorem isEncodedChar_hexDigit : ∀ n < 16, isEncodedChar (hexDigit n) = true := by decide +kernel

/-- The characters of an encoded text. -/
theorem mem_encodeURIComponent {text : String} {c : Char}
    (h : c ∈ (encodeURIComponent text).toList) : isEncodedChar c = true := by
  unfold encodeURIComponent at h
  rw [String.toList_ofList] at h
  obtain ⟨d, -, hd⟩ := List.mem_flatMap.mp h
  split_ifs at hd with hplain
  · obtain rfl := List.mem_singleton.mp hd
    unfold isEncodedChar
    rw [hplain, Bool.true_or]
  · unfold percentEncode at hd
    obtain ⟨byte, -, hbyte⟩ := List.mem_flatMap.mp hd
    have hbound := byte.toNat_lt
    simp only [List.mem_cons, List.not_mem_nil, or_false] at hbyte
    rcases hbyte with rfl | rfl | rfl
    · rfl
    · exact isEncodedChar_hexDigit _ (by omega)
    · exact isEncodedChar_hexDigit _ (by omega)

/-! ## Access URLs -/

/-- A user and a secret. -/
structure BasicCredentials where
  user : String
  secret : String
  deriving DecidableEq, Repr

/-- The parts of `new URL(text)` that an Access URL takes over. -/
structure UrlParts where
  protocol : String
  host : String
  pathname : String
  deriving DecidableEq, Repr

/-- `new URL(text)`: nothing when it throws; a protocol is a scheme and a
colon. -/
structure UrlParser where
  parse : String → Option UrlParts
  protocol_slash : ∀ text url, parse text = some url → '/' ∉ url.protocol.toList

/-- `scheme://<basicUser>:<secret>@<host[:port]>/simplefin` derived from the
public URL. -/
def buildAccessUrl (urls : UrlParser) (publicUrl basicUser secret : String) :
    Except BridgeError String :=
  match urls.parse publicUrl with
  | none => .error .invalidUrl
  | some url =>
      let basePath := String.ofList (url.pathname.toList.reverse.dropWhile (· = '/')).reverse
      .ok (url.protocol ++ "//" ++ encodeURIComponent basicUser ++ ":" ++ encodeURIComponent secret ++
        "@" ++ url.host ++ basePath ++ "/simplefin")

/-- What a client reads in an Access URL: the text between `//` and `@`,
split at the colon and decoded. -/
def accessCredentials (url : String) : Option BasicCredentials :=
  let userinfo := ((url.toList.dropWhile (· ≠ '/')).drop 2).takeWhile (· ≠ '@')
  match decodeURIComponent (String.ofList (userinfo.takeWhile (· ≠ ':'))),
      decodeURIComponent (String.ofList ((userinfo.dropWhile (· ≠ ':')).drop 1)) with
  | .ok user, .ok secret => some ⟨user, secret⟩
  | _, _ => none

/-- Splitting at the first separator. -/
theorem takeWhile_append_sep {c : Char} {before after : List Char} (h : c ∉ before) :
    (before ++ c :: after).takeWhile (· ≠ c) = before := by
  have hall : ∀ d ∈ before, decide (d ≠ c) = true := by
    intro d hd
    have hne : d ≠ c := fun heq => h (heq ▸ hd)
    simpa using hne
  rw [List.takeWhile_append_of_pos hall]
  simp

/-- What stands behind a separator. -/
theorem dropWhile_append_sep {c : Char} {before after : List Char} (h : c ∉ before) :
    (before ++ c :: after).dropWhile (· ≠ c) = c :: after := by
  have hall : ∀ d ∈ before, decide (d ≠ c) = true := by
    intro d hd
    have hne : d ≠ c := fun heq => h (heq ▸ hd)
    simpa using hne
  rw [List.dropWhile_append_of_pos hall]
  simp

/-- An encoded text has no separator. -/
theorem not_mem_encoded {text : String} {c : Char} (h : isEncodedChar c = false) :
    c ∉ (encodeURIComponent text).toList := by
  intro hmem
  rw [mem_encodeURIComponent hmem] at h
  cases h

/-- **An Access URL carries its credentials.** -/
theorem accessCredentials_build {urls : UrlParser} {publicUrl user secret url : String}
    (h : buildAccessUrl urls publicUrl user secret = .ok url) :
    accessCredentials url = some ⟨user, secret⟩ := by
  unfold buildAccessUrl at h
  cases hparse : urls.parse publicUrl with
  | none =>
      rw [hparse] at h
      cases h
  | some parts =>
      rw [hparse] at h
      have hurl := Except.ok.inj h
      have hprotocol := urls.protocol_slash publicUrl parts hparse
      have hchars : ∃ rest : List Char, url.toList = parts.protocol.toList ++ '/' ::
          ('/' :: (((encodeURIComponent user).toList ++
            ':' :: (encodeURIComponent secret).toList) ++ '@' :: rest)) := by
        refine ⟨parts.host.toList ++ (String.ofList
          (parts.pathname.toList.reverse.dropWhile (· = '/')).reverse).toList ++
            "/simplefin".toList, ?_⟩
        rw [← hurl]
        simp [String.toList_append]
      obtain ⟨rest, hchars⟩ := hchars
      have hat : '@' ∉ (encodeURIComponent user).toList ++ ':' :: (encodeURIComponent secret).toList := by
        intro hmem
        rcases List.mem_append.mp hmem with hmem | hmem
        · exact not_mem_encoded (by decide) hmem
        · rcases List.mem_cons.mp hmem with heq | hmem
          · cases heq
          · exact not_mem_encoded (by decide) hmem
      have hcolon : ':' ∉ (encodeURIComponent user).toList := not_mem_encoded (by decide)
      unfold accessCredentials
      rw [hchars, dropWhile_append_sep hprotocol, List.drop_succ_cons, List.drop_succ_cons,
        List.drop_zero]
      dsimp only
      rw [takeWhile_append_sep hat, takeWhile_append_sep hcolon, dropWhile_append_sep hcolon,
        List.drop_succ_cons, List.drop_zero, String.ofList_toList, String.ofList_toList,
        decodeURIComponent_encode, decodeURIComponent_encode]

/-! ## Headers -/

/-- `header.trim().split(/\s+/)`; a blank header gives no word here and one empty
word there, which is no scheme either. -/
def headerWords (header : String) : List (List Char) :=
  (header.toList.splitOnP isJsSpace).filter (· ≠ [])

/-- `parseBasicAuth`.  Only ASCII letters have a lower case among the letters of
`basic`. -/
def parseBasicAuth (header : Option String) : Option BasicCredentials :=
  match (header.map headerWords).getD [] with
  | [scheme, token] =>
      if scheme.map Char.toLower ≠ "basic".toList then none
      else
        let decoded := utf8Decode (base64Decode token)
        let user := decoded.takeWhile (· ≠ ':')
        match decoded.dropWhile (· ≠ ':') with
        | _ :: secret =>
            if user = [] then none else some ⟨String.ofList user, String.ofList secret⟩
        | [] => none
  | _ => none

/-- The header a client sends with its credentials. -/
def authorization (credentials : BasicCredentials) : String :=
  "Basic " ++ String.ofList
    (base64Encode (utf8Encode (credentials.user ++ ":" ++ credentials.secret).toList))

/-- No digit of base64 is white space. -/
theorem isJsSpace_base64Digit : ∀ n < 64, isJsSpace (base64Digit n) = false := by decide +kernel

/-- A header of two words. -/
theorem headerWords_authorization (token : List Char) (hne : token ≠ [])
    (hspace : ∀ c ∈ token, isJsSpace c = false) :
    headerWords ("Basic " ++ String.ofList token) = ["Basic".toList, token] := by
  have hscheme : ∀ c ∈ "Basic".toList, isJsSpace c = false :=
    forall_char_of_all (by decide +kernel)
  have hchars : ("Basic " ++ String.ofList token).toList = "Basic".toList ++ ' ' :: token := by
    simp [String.toList_append]
  unfold headerWords
  rw [hchars, List.splitOnP_append_cons_of_forall_mem hscheme _ (by decide +kernel),
    List.splitOnP_eq_singleton hspace]
  simp [hne]

/-- **Header round trip.**  The header of some credentials is parsed back to
them, unless the user is empty or contains a colon. -/
theorem parse_authorization {credentials : BasicCredentials} (hne : credentials.user ≠ "")
    (hcolon : ':' ∉ credentials.user.toList) :
    parseBasicAuth (some (authorization credentials)) = some credentials := by
  have hbytes : ∀ b ∈ utf8Encode (credentials.user ++ ":" ++ credentials.secret).toList, b < 256 :=
    fun b hb => mem_utf8Encode_lt hb
  have hchars : (credentials.user ++ ":" ++ credentials.secret).toList =
      credentials.user.toList ++ ':' :: credentials.secret.toList := by
    simp [String.toList_append]
  have htoken : base64Encode (utf8Encode (credentials.user ++ ":" ++ credentials.secret).toList) ≠ [] := by
    apply base64Encode_ne_nil
    intro hnil
    have hdecoded := utf8Decode_encode (credentials.user ++ ":" ++ credentials.secret).toList
    rw [hnil, hchars] at hdecoded
    exact List.append_ne_nil_of_right_ne_nil _ (List.cons_ne_nil _ _) hdecoded.symm
  have hspace : ∀ c ∈ base64Encode (utf8Encode (credentials.user ++ ":" ++ credentials.secret).toList),
      isJsSpace c = false := by
    intro c hc
    rcases mem_base64Encode hbytes hc with rfl | ⟨n, hn, rfl⟩
    · decide +kernel
    · exact isJsSpace_base64Digit n hn
  have huser : credentials.user.toList ≠ [] := by
    intro hnil
    apply hne
    rw [← String.ofList_toList (s := credentials.user), hnil]
  unfold parseBasicAuth authorization
  rw [Option.map_some, Option.getD_some, headerWords_authorization _ htoken hspace]
  dsimp only
  rw [if_neg (by decide +kernel), base64Decode_encode _ hbytes, utf8Decode_encode, hchars,
    takeWhile_append_sep hcolon, dropWhile_append_sep hcolon]
  dsimp only
  rw [if_neg huser, String.ofList_toList, String.ofList_toList]

end SimplefinBridge
