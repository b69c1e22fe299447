import Grantd.Protocol.DnsName
import Grantd.Service.RoundTrip
import Grantd.Service.Text

/-!
# Host names and their records

cloudflare/src/dns.ts. The name of a host is derived from its id and the
configured suffix; `syncHostRecord` points it at one address. The zone is the
list of its records, and a call to the API that succeeds does to it what it
says.
-/

namespace Grantd.Service

open Base

-- ---------------------------------------------------------------------------
-- Names
-- ---------------------------------------------------------------------------

structure DnsEnv where
  dnsToken : Option JsString
  hostZoneID : Option JsString
  hostDnsSuffix : Option JsString

structure DnsConfig where
  token : JsString
  zoneID : JsString
  suffix : JsString
  deriving DecidableEq, Repr

def isLdh (c : UInt16) : Bool :=
  (0x61 ≤ c && c ≤ 0x7A) || (0x30 ≤ c && c ≤ 0x39) || c == 0x2D

/-- The pattern `(?!-)[a-z0-9-]{1,63}(?<!-)`. -/
def isDnsLabel (l : JsString) : Bool :=
  decide (1 ≤ l.length) && decide (l.length ≤ 63) && l.all isLdh && l.head? != some 0x2D &&
    l.getLast? != some 0x2D

/-- The pattern of `SUFFIX_RE`: two labels or more, with a dot between them. -/
def suffixRe (s : JsString) : Bool :=
  decide (2 ≤ (s.splitOn 0x2E).length) && (s.splitOn 0x2E).all isDnsLabel

def isLowerHex (c : UInt16) : Bool := (0x30 ≤ c && c ≤ 0x39) || (0x61 ≤ c && c ≤ 0x66)

/-- The pattern `^[0-9a-f]{32}$`. -/
def zoneIDRe (s : JsString) : Bool := decide (s.length = 32) && s.all isLowerHex

/-- `dnsConfig`; lower-casing is JavaScript's. -/
def dnsConfig (toLowerCase : JsString → JsString) (env : DnsEnv) : Option DnsConfig := do
  let token := trim (← env.dnsToken)
  let zoneID := trim (← env.hostZoneID)
  let suffix := toLowerCase (trim (← env.hostDnsSuffix))
  if token == [] || zoneID == [] || suffix == [] then none
  else if !zoneIDRe zoneID then none
  else if !suffixRe suffix then none
  else some ⟨token, zoneID, suffix⟩

/-- The pattern `^[a-z2-7]{32}$`. -/
def labelRe (label : JsString) : Bool := idRe [] 32 label

def hostRecordName (hostID suffix : JsString) : Option JsString :=
  if !(js "h_").isPrefixOf hostID then none
  else
    let label := hostID.drop 2
    if labelRe label then some (label ++ js "." ++ suffix) else none

-- ---------------------------------------------------------------------------
-- The name the host signs
-- ---------------------------------------------------------------------------

theorem splitOn_ofBytes (s : GoString) :
    (ofBytes s).splitOn 0x2E = (s.splitOn 0x2E).map ofBytes := by
  refine Protocol.splitOn_map (fun c => ?_) s
  rw [Bool.eq_iff_iff, beq_iff_eq, beq_iff_eq]
  exact ⟨fun h => toUInt16_inj h, congrArg UInt8.toUInt16⟩

theorem splitOn_toLower (s : GoString) :
    (s.map Url.toLower).splitOn 0x2E = (s.splitOn 0x2E).map (List.map Url.toLower) := by
  refine Protocol.splitOn_map (fun c => ?_) s
  have hbyte := Code.forall_byte (p := fun c => (Url.toLower c == 0x2E) == (c == 0x2E))
    (by decide +kernel) c
  exact beq_iff_eq.mp hbyte

theorem edge_ofBytes {c : UInt8} (h : Protocol.isLdh c = true) :
    (some c.toUInt16 != some 0x2D) = (Protocol.isLower c || Protocol.isDigit c) := by
  have hbyte := Code.forall_byte (p := fun c => !Protocol.isLdh c ||
    ((some c.toUInt16 != some 0x2D) == (Protocol.isLower c || Protocol.isDigit c)))
    (by decide +kernel) c
  simpa [h] using hbyte

theorem isDnsLabel_ofBytes (l : GoString) :
    isDnsLabel (ofBytes l) = (Protocol.isDnsLabel l && decide (l.length ≤ 63)) := by
  cases l with
  | nil => rfl
  | cons c cs =>
    have hall := all_ofBytes (p := Protocol.isLdh) (q := isLdh) (by decide +kernel) (c :: cs)
    have hlen : (ofBytes (c :: cs)).length = (c :: cs).length := List.length_map _
    have hhead : (ofBytes (c :: cs)).head? = some c.toUInt16 := rfl
    have hlast : (ofBytes (c :: cs)).getLast? = some ((c :: cs).getLast (by simp)).toUInt16 := by
      rw [ofBytes, List.getLast?_map, List.getLast?_eq_some_getLast (by simp), Option.map_some]
    rw [isDnsLabel, Protocol.isDnsLabel, hall, hlen, hhead, hlast, List.head?_cons,
      List.getLast?_eq_some_getLast (by simp), Option.any_some, Option.any_some]
    by_cases h : (c :: cs).all Protocol.isLdh = true
    · have hmem := List.all_eq_true.mp h
      rw [edge_ofBytes (hmem c List.mem_cons_self), edge_ofBytes (hmem _ (List.getLast_mem _)), h]
      have hone : decide (1 ≤ (c :: cs).length) = true := by simp
      rw [hone, Bool.true_and, Bool.and_true, Bool.true_and, Bool.and_assoc, Bool.and_comm]
    · rw [Bool.not_eq_true] at h
      simp only [h, Bool.and_false, Bool.false_and]

theorem suffixRe_ofBytes (s : GoString) :
    suffixRe (ofBytes s) = (Protocol.dnsSuffixRe s &&
      (s.splitOn 0x2E).all fun l => decide (l.length ≤ 63)) := by
  rw [suffixRe, splitOn_ofBytes, List.length_map, List.all_map, Protocol.dnsSuffixRe,
    Bool.and_assoc]
  congr 1
  rw [Bool.eq_iff_iff, Bool.and_eq_true, List.all_eq_true, List.all_eq_true, List.all_eq_true,
    ← forall₂_and]
  simp only [Function.comp_apply, isDnsLabel_ofBytes, Bool.and_eq_true]

theorem ascii_of_validHostID {id : GoString} (h : Protocol.validHostID id = true) :
    ∀ c ∈ id, c < 0x80 := by
  intro c hc
  have hbyte := Code.forall_byte (p := fun c => !((lit "h_").contains c || Protocol.isB32 c) ||
    decide (c < 0x80)) (by decide +kernel) c
  have hclass : ((lit "h_").contains c || Protocol.isB32 c) = true := by
    rcases Protocol.mem_of_matchesID h hc with htag | hb32
    · rw [List.contains_iff_mem.mpr htag, Bool.true_or]
    · rw [hb32, Bool.or_true]
  rw [hclass, Bool.not_true, Bool.false_or] at hbyte
  exact of_decide_eq_true hbyte

theorem exists_of_hostIDRe {h : JsString} (hid : hostIDRe h = true) : ∃ b, h = ofBytes b := by
  simp only [hostIDRe, idRe, Bool.and_eq_true, List.isPrefixOf_iff_prefix, List.all_eq_true] at hid
  obtain ⟨⟨⟨rest, rfl⟩, -⟩, hall⟩ := hid
  rw [List.drop_left] at hall
  have hlt : ∀ c ∈ rest, c < 0x100 := by
    intro c hmem
    have hc := hall c hmem
    simp only [isB32, Bool.or_eq_true, Bool.and_eq_true, decide_eq_true_eq, UInt16.le_iff_toNat_le,
      UInt16.lt_iff_toNat_lt, UInt16.reduceToNat] at hc ⊢
    omega
  obtain ⟨b, rfl⟩ := exists_ofBytes hlt
  exact ⟨lit "h_" ++ b, List.map_append.symm⟩

theorem hostIDRe_eq (h : JsString) : hostIDRe h = Protocol.validHostID (textEncode h) := by
  rw [Bool.eq_iff_iff]
  constructor
  · intro hid
    obtain ⟨b, rfl⟩ := exists_of_hostIDRe hid
    rw [hostIDRe_ofBytes] at hid
    rwa [textEncode_ofBytes (ascii_of_validHostID hid)]
  · intro hid
    rw [← ofBytes_textEncode (ascii_of_validHostID hid), hostIDRe_ofBytes]
    exact hid

theorem hostRecordName_eq (hostID suffix : JsString) : hostRecordName hostID suffix =
    if hostIDRe hostID then some (hostID.drop 2 ++ js "." ++ suffix) else none := by
  have htag : (js "h_").length = 2 := by decide
  by_cases hpre : (js "h_").isPrefixOf hostID = true
  · simp [hostRecordName, hostIDRe, labelRe, idRe, hpre, htag]
  · simp [hostRecordName, hostIDRe, idRe, hpre]

/-- The lower-casing of both languages. ASCII text is mapped letter by letter. -/
structure Casing where
  toLower : GoString → GoString
  toLowerCase : JsString → JsString
  toLower_ascii {s : GoString} (h : ∀ c ∈ s, c < 0x80) : toLower s = s.map Url.toLower
  toLowerCase_ascii {s : GoString} (h : ∀ c ∈ s, c < 0x80) :
    toLowerCase (ofBytes s) = ofBytes (s.map Url.toLower)

def ZoneConfigured (token zoneID : JsString) : Prop :=
  trim token ≠ [] ∧ zoneIDRe (trim zoneID) = true

theorem dnsConfig_eq {K : Casing} {s : GoString} (hascii : ∀ c ∈ s, c < 0x80)
    (hspace : trim (ofBytes s) = ofBytes s) (hz : ZoneConfigured token zoneID) :
    dnsConfig K.toLowerCase ⟨some token, some zoneID, some (ofBytes s)⟩ =
      if suffixRe (ofBytes (s.map Url.toLower)) then
        some ⟨trim token, trim zoneID, ofBytes (s.map Url.toLower)⟩
      else none := by
  have htoken : (trim token == []) = false := beq_eq_false_iff_ne.mpr hz.1
  have hzone : (trim zoneID == []) = false := by
    refine beq_eq_false_iff_ne.mpr fun hnil => ?_
    have hre := hz.2
    rw [hnil] at hre
    cases hre
  simp only [dnsConfig, bind, Option.bind_some, hspace, K.toLowerCase_ascii hascii, htoken, hzone,
    hz.2, Bool.false_or, Bool.not_true, Bool.false_eq_true, if_false]
  by_cases hs : suffixRe (ofBytes (s.map Url.toLower)) = true
  · have hne : (ofBytes (s.map Url.toLower) == []) = false := by
      refine beq_eq_false_iff_ne.mpr fun hnil => ?_
      rw [hnil] at hs
      exact absurd hs (by decide)
    simp [hs, hne]
  · simp [hs]

/-- The service bounds each label and the host bounds the whole name. For a
host id and a suffix in their grammars it has to come to the same. -/
def BoundsAgree (h : JsString) (s : GoString) : Prop :=
  hostIDRe h = true → Protocol.dnsSuffixRe (s.map Url.toLower) = true →
    ((∀ l ∈ s.splitOn 0x2E, l.length ≤ 63) ↔ s.length ≤ 220)

theorem suffixRe_lower (s : GoString) : suffixRe (ofBytes (s.map Url.toLower)) = true ↔
    Protocol.dnsSuffixRe (s.map Url.toLower) = true ∧ ∀ l ∈ s.splitOn 0x2E, l.length ≤ 63 := by
  rw [suffixRe_ofBytes, Bool.and_eq_true, splitOn_toLower, List.all_map, List.all_eq_true]
  simp only [Function.comp_apply, List.length_map, decide_eq_true_eq]

/-- Host and service derive the same name exactly when their bounds agree. -/
theorem dns_name_agrees_iff (K : Casing) (h : JsString) {s : GoString}
    (hascii : ∀ c ∈ s, c < 0x80) (hspace : trim (ofBytes s) = ofBytes s)
    (hz : ZoneConfigured token zoneID) :
    (∀ n : GoString, Protocol.hostDNSName K.toLower (textEncode h) s = .ok n ↔
      ∃ cfg, dnsConfig K.toLowerCase ⟨some token, some zoneID, some (ofBytes s)⟩ = some cfg ∧
        cfg.suffix = K.toLowerCase (ofBytes s) ∧
        hostRecordName h cfg.suffix = some (ofBytes n)) ↔ BoundsAgree h s := by
  have hnil : K.toLower [] = [] := K.toLower_ascii nofun
  simp only [Protocol.hostDNSName_eq_ok hnil, dnsConfig_eq hascii hspace hz, K.toLower_ascii hascii,
    K.toLowerCase_ascii hascii, hostRecordName_eq, ← hostIDRe_eq, List.length_map]
  by_cases hid : hostIDRe h = true
  · obtain ⟨b, rfl⟩ := exists_of_hostIDRe hid
    have hb : textEncode (ofBytes b) = b := by
      rw [hostIDRe_ofBytes] at hid
      exact textEncode_ofBytes (ascii_of_validHostID hid)
    have hname : (ofBytes b).drop 2 ++ js "." ++ ofBytes (s.map Url.toLower) =
        ofBytes (b.drop 2 ++ lit "." ++ s.map Url.toLower) := by
      simp only [ofBytes, js, List.map_append, List.map_drop]
    have hservice (n : GoString) : (∃ cfg : DnsConfig,
        (if suffixRe (ofBytes (s.map Url.toLower)) then
          some ⟨trim token, trim zoneID, ofBytes (s.map Url.toLower)⟩ else none) = some cfg ∧
        cfg.suffix = ofBytes (s.map Url.toLower) ∧
        (if hostIDRe (ofBytes b) then some ((ofBytes b).drop 2 ++ js "." ++ cfg.suffix) else none) =
          some (ofBytes n)) ↔
        suffixRe (ofBytes (s.map Url.toLower)) = true ∧
          n = b.drop 2 ++ lit "." ++ s.map Url.toLower := by
      constructor
      · rintro ⟨cfg, hcfg, hsuffix, heq⟩
        split at hcfg
        · rename_i hre
          rw [if_pos hid, hsuffix, hname, Option.some.injEq] at heq
          exact ⟨hre, (ofBytes_inj heq).symm⟩
        · cases hcfg
      · rintro ⟨hre, rfl⟩
        exact ⟨_, if_pos hre, rfl, by rw [if_pos hid, hname]⟩
    simp only [hservice]
    simp only [hb, suffixRe_lower, hid, true_and]
    unfold BoundsAgree
    constructor
    · intro hall _ hgrammar
      have h := hall (b.drop 2 ++ lit "." ++ s.map Url.toLower)
      rw [and_iff_right hgrammar, and_iff_right hgrammar] at h
      simpa only [and_true] using h.symm
    · intro hbounds n
      constructor
      · rintro ⟨hgrammar, hlen, hn⟩
        exact ⟨⟨hgrammar, (hbounds hid hgrammar).mpr hlen⟩, hn⟩
      · rintro ⟨⟨hgrammar, hlabels⟩, hn⟩
        exact ⟨hgrammar, (hbounds hid hgrammar).mp hlabels, hn⟩
  · refine iff_of_true (fun n => iff_of_false ?_ ?_) fun hid' => absurd hid' hid
    · exact fun hgo => hid hgo.1.1
    · rintro ⟨cfg, -, -, heq⟩
      rw [if_neg hid] at heq
      cases heq

namespace Sample

def lowerUnit (c : UInt16) : UInt16 := if 0x41 ≤ c && c ≤ 0x5A then c + 0x20 else c

/-- The letters of ASCII are all that the sample lower-cases. -/
def casing : Casing where
  toLower := List.map Url.toLower
  toLowerCase := List.map lowerUnit
  toLower_ascii _ := rfl
  toLowerCase_ascii _ := by
    have hunit (c : UInt8) : lowerUnit c.toUInt16 = (Url.toLower c).toUInt16 :=
      beq_iff_eq.mp (Code.forall_byte (p := fun c => lowerUnit c.toUInt16 ==
        (Url.toLower c).toUInt16) (by decide +kernel) c)
    simp only [ofBytes, List.map_map, Function.comp_def, hunit]

def namedHost : JsString := js "h_gr2q7gf5lh6pzfdnurnkvputhpqvjjfv"

def zoneToken : JsString := js "token"
def zoneID : JsString := js "0123456789abcdef0123456789abcdef"

def longLabel : GoString := List.replicate 64 0x61 ++ lit ".example"

end Sample

/-- What the service writes for the sample host is what the host signs. -/
theorem dns_name_agrees_sample :
    Protocol.hostDNSName Sample.casing.toLower (textEncode Sample.namedHost)
      (lit "Grantd.example") =
      .ok (lit "gr2q7gf5lh6pzfdnurnkvputhpqvjjfv.grantd.example") := by
  have hascii : ((lit "Grantd.example").all fun c => decide (c < 0x80)) = true := by decide
  have hlabels : ((lit "Grantd.example").splitOn 0x2E).all (fun l => decide (l.length ≤ 63)) =
      true := by
    decide
  have hagree : BoundsAgree Sample.namedHost (lit "Grantd.example") := by
    refine fun _ _ => iff_of_true (fun l hl => ?_) (by decide)
    exact of_decide_eq_true (List.all_eq_true.mp hlabels l hl)
  refine ((dns_name_agrees_iff Sample.casing Sample.namedHost (fun c hc =>
    of_decide_eq_true (List.all_eq_true.mp hascii c hc)) (by decide : trim (ofBytes _) = _)
    (⟨by decide, by decide⟩ : ZoneConfigured Sample.zoneToken Sample.zoneID)).mpr hagree _).mpr ?_
  exact ⟨⟨Sample.zoneToken, Sample.zoneID, js "grantd.example"⟩, by decide, by decide, by decide⟩

/-- The host signs a name under a label of 64 letters; the service does not
take the suffix. -/
theorem dns_name_long_label :
    Protocol.hostDNSName Sample.casing.toLower (textEncode Sample.namedHost) Sample.longLabel =
        .ok (lit "gr2q7gf5lh6pzfdnurnkvputhpqvjjfv." ++ Sample.longLabel) ∧
      dnsConfig Sample.casing.toLowerCase
        ⟨some Sample.zoneToken, some Sample.zoneID, some (ofBytes Sample.longLabel)⟩ = none := by
  decide +kernel

-- ---------------------------------------------------------------------------
-- Records
-- ---------------------------------------------------------------------------

inductive RecordType
  | a
  | aaaa
  deriving DecidableEq, Repr

def RecordType.text : RecordType → JsString
  | .a => js "A"
  | .aaaa => js "AAAA"

def isAsciiDigit (c : UInt16) : Bool := 0x30 ≤ c && c ≤ 0x39

def octet (o : JsString) : Nat := o.foldl (fun n c => 10 * n + (c.toNat - 0x30)) 0

/-- The pattern `^(\d{1,3}\.){3}\d{1,3}$`. -/
def ipv4Re (ip : JsString) : Bool :=
  decide ((ip.splitOn 0x2E).length = 4) && (ip.splitOn 0x2E).all fun o =>
    decide (1 ≤ o.length) && decide (o.length ≤ 3) && o.all isAsciiDigit

/-- The pattern `^[0-9a-fA-F:]{2,45}$`. -/
def ipv6Re (ip : JsString) : Bool :=
  decide (2 ≤ ip.length) && decide (ip.length ≤ 45) && ip.all fun c =>
    isLowerHex c || (0x41 ≤ c && c ≤ 0x46) || c == 0x3A

def recordTypeFor (ip : JsString) : Option RecordType :=
  if ipv4Re ip then
    if (ip.splitOn 0x2E).all fun o => decide (octet o ≤ 255) &&
        ofBytes (Decimal.text (octet o)) == o then some .a
    else none
  else if ipv6Re ip && ip.contains 0x3A then some .aaaa
  else none

structure CfRecord where
  id : JsString
  type : JsString
  name : JsString
  content : JsString
  proxied : Bool
  deriving DecidableEq, Repr

structure RecordBody where
  type : RecordType
  name : JsString
  content : JsString
  ttl : Nat
  proxied : Bool
  deriving DecidableEq, Repr

def recordTTL : Nat := 60

def recordBody (type : RecordType) (name ip : JsString) : RecordBody :=
  ⟨type, name, ip, recordTTL, false⟩

inductive DnsCall
  | post (body : RecordBody)
  | put (id : JsString) (body : RecordBody)
  | delete (id : JsString)
  deriving DecidableEq, Repr

def writeCall (type : RecordType) (name ip : JsString) (existing : List CfRecord) : DnsCall :=
  match existing.find? (·.type == type.text) with
  | some mine => .put mine.id (recordBody type name ip)
  | none => .post (recordBody type name ip)

def isAddress (type : JsString) : Bool := type == js "A" || type == js "AAAA"

/-- The records of the other family, which are deleted. -/
def stale (type : RecordType) (existing : List CfRecord) : List CfRecord :=
  existing.filter fun r => isAddress r.type && r.type != type.text

-- ---------------------------------------------------------------------------
-- The zone
-- ---------------------------------------------------------------------------

abbrev Zone := List CfRecord

def RecordBody.record (b : RecordBody) (id : JsString) : CfRecord :=
  ⟨id, b.type.text, b.name, b.content, b.proxied⟩

/-- What a call does that succeeds; `newID` is the id the API gives a new
record. -/
def DnsCall.apply (newID : JsString) : DnsCall → Zone → Zone
  | .post body, z => z ++ [body.record newID]
  | .put id body, z => z.map fun r => if r.id = id then body.record id else r
  | .delete id, z => z.filter fun r => r.id != id

def listed (name : JsString) (z : Zone) : List CfRecord := (z.filter (·.name == name)).take 100

structure Outcomes where
  list : Bool
  write : Bool
  delete : JsString → Bool

inductive SyncResult
  | synced (type : RecordType)
  | unusable
  | listFailed
  | writeFailed
  deriving DecidableEq, Repr

/-- `syncHostRecord`. A deletion that fails is not looked at. -/
def syncHostRecord (o : Outcomes) (newID name ip : JsString) (z : Zone) : SyncResult × Zone :=
  match recordTypeFor ip with
  | none => (.unusable, z)
  | some type =>
    if !o.list then (.listFailed, z)
    else
      let existing := listed name z
      if !o.write then (.writeFailed, z)
      else
        let deletions := (stale type existing).filter fun r => o.delete r.id
        (.synced type, deletions.foldl (fun z r => DnsCall.apply newID (.delete r.id) z)
          ((writeCall type name ip existing).apply newID z))

def Outcomes.all : Outcomes := ⟨true, true, fun _ => true⟩

def isAddressOf (name : JsString) (r : CfRecord) : Bool := r.name == name && isAddress r.type

def isTyped (type : RecordType) (name : JsString) (r : CfRecord) : Bool :=
  r.name == name && r.type == type.text

section
variable {z : Zone} {type : RecordType} {name ip newID : JsString}

theorem isAddress_text (type : RecordType) : isAddress type.text = true := by
  cases type <;> decide

def isStale (type : RecordType) (name : JsString) (r : CfRecord) : Bool :=
  r.name == name && (isAddress r.type && r.type != type.text)

theorem isAddressOf_eq (type : RecordType) (r : CfRecord) :
    isAddressOf name r = (isTyped type name r || isStale type name r) := by
  by_cases ht : r.type = type.text
  · simp [isAddressOf, isTyped, isStale, ht, isAddress_text]
  · have hne : (r.type == type.text) = false := beq_eq_false_iff_ne.mpr ht
    simp only [isAddressOf, isTyped, isStale, bne, hne, Bool.and_false, Bool.false_or,
      Bool.not_false, Bool.and_true]

theorem isStale_of_isTyped (h : isTyped type name r = true) : isStale type name r = false := by
  simp only [isTyped, Bool.and_eq_true] at h
  simp only [isStale, bne, h.2, Bool.not_true, Bool.and_false]

theorem stale_listed (hpage : (z.filter (·.name == name)).length ≤ 100) :
    stale type (listed name z) = z.filter (isStale type name) := by
  rw [listed, List.take_of_length_le hpage, stale, List.filter_filter]
  congr 1
  funext r
  rw [isStale, Bool.and_comm]

theorem find_listed (hpage : (z.filter (·.name == name)).length ≤ 100) :
    (listed name z).find? (·.type == type.text) = (z.filter (isTyped type name)).head? := by
  rw [listed, List.take_of_length_le hpage, ← List.head?_filter, List.filter_filter]
  congr 2
  funext r
  rw [isTyped, Bool.and_comm]

theorem foldl_delete (rs : List CfRecord) (z : Zone) :
    rs.foldl (fun z r => DnsCall.apply newID (.delete r.id) z) z =
      z.filter fun r => !(rs.map CfRecord.id).contains r.id := by
  induction rs generalizing z with
  | nil => simp
  | cons r rs ih =>
    rw [List.foldl_cons, ih, DnsCall.apply, List.filter_filter]
    congr 1
    funext x
    rw [List.map_cons, List.contains_cons, Bool.not_or, Bool.and_comm, bne]

theorem eq_of_id (hids : (z.map CfRecord.id).Nodup) (ha : a ∈ z) (hb : b ∈ z) (h : a.id = b.id) :
    a = b := List.inj_on_of_nodup_map hids ha hb h

theorem contains_stale (hids : (z.map CfRecord.id).Nodup) (hr : r ∈ z) :
    ((z.filter (isStale type name)).map CfRecord.id).contains r.id = isStale type name r := by
  rw [Bool.eq_iff_iff, List.contains_iff_mem, List.mem_map]
  constructor
  · rintro ⟨r', hr', hid⟩
    obtain ⟨hmem, hstale⟩ := List.mem_filter.mp hr'
    rwa [eq_of_id hids hr hmem hid.symm]
  · exact fun hstale => ⟨r, List.mem_filter.mpr ⟨hr, hstale⟩, rfl⟩

def syncedZone (type : RecordType) (newID name ip : JsString) (z : Zone) : Zone :=
  ((writeCall type name ip (listed name z)).apply newID z).filter fun r =>
    !((z.filter (isStale type name)).map CfRecord.id).contains r.id

theorem syncHostRecord_all (htype : recordTypeFor ip = some type)
    (hpage : (z.filter (·.name == name)).length ≤ 100) :
    syncHostRecord .all newID name ip z = (.synced type, syncedZone type newID name ip z) := by
  simp only [syncHostRecord, htype, Outcomes.all, Bool.not_true, Bool.false_eq_true, if_false,
    List.filter_true, foldl_delete, stale_listed hpage, syncedZone]

def written (type : RecordType) (name ip id : JsString) : CfRecord :=
  (recordBody type name ip).record id

theorem isTyped_written (id : JsString) : isTyped type name (written type name ip id) = true := by
  simp [isTyped, written, recordBody, RecordBody.record]

theorem syncedZone_post (hids : (z.map CfRecord.id).Nodup) (hnew : newID ∉ z.map CfRecord.id)
    (hpage : (z.filter (·.name == name)).length ≤ 100)
    (hnone : z.filter (isTyped type name) = []) :
    syncedZone type newID name ip z =
      (z.filter fun r => !isStale type name r) ++ [written type name ip newID] := by
  have hcall : writeCall type name ip (listed name z) = .post (recordBody type name ip) := by
    rw [writeCall, find_listed hpage, hnone]
    rfl
  have hkept : ((z.filter (isStale type name)).map CfRecord.id).contains newID = false := by
    rw [Bool.eq_false_iff, ne_eq, List.contains_iff_mem, List.mem_map]
    rintro ⟨r, hr, hid⟩
    exact hnew (hid ▸ List.mem_map_of_mem (List.mem_filter.mp hr).1)
  rw [syncedZone, hcall, DnsCall.apply, List.filter_append]
  congr 1
  · exact List.filter_congr fun r hr => by rw [contains_stale hids hr]
  · refine List.filter_eq_self.mpr fun r hr => ?_
    rw [List.mem_singleton.mp hr]
    exact (Bool.not_eq_eq_eq_not ..).mpr hkept

def replaced (type : RecordType) (name ip : JsString) (mine r : CfRecord) : CfRecord :=
  if r.id = mine.id then written type name ip mine.id else r

theorem syncedZone_put (hids : (z.map CfRecord.id).Nodup)
    (hpage : (z.filter (·.name == name)).length ≤ 100)
    (hsome : z.filter (isTyped type name) = mine :: rest) :
    syncedZone type newID name ip z =
      (z.filter fun r => !isStale type name r).map (replaced type name ip mine) := by
  obtain ⟨hmine, htyped⟩ := List.mem_filter.mp (hsome ▸ List.mem_cons_self : mine ∈ z.filter _)
  have hcall : writeCall type name ip (listed name z) = .put mine.id (recordBody type name ip) := by
    rw [writeCall, find_listed hpage, hsome]
    rfl
  have happly : DnsCall.apply newID (.put mine.id (recordBody type name ip)) z =
      z.map (replaced type name ip mine) := rfl
  rw [syncedZone, hcall, happly, List.filter_map, Function.comp_def]
  congr 1
  refine List.filter_congr fun r hr => congrArg (!·) ?_
  by_cases hid : r.id = mine.id
  · have heq := eq_of_id hids hr hmine hid
    have hkept : (replaced type name ip mine r).id = mine.id := by
      rw [replaced, if_pos hid]
      rfl
    rw [hkept, contains_stale hids hmine, heq]
  · rw [replaced, if_neg hid, contains_stale hids hr]

theorem filter_address (z : Zone) : (z.filter fun r => !isStale type name r).filter
    (isAddressOf name) = z.filter (isTyped type name) := by
  rw [List.filter_filter]
  congr 1
  funext r
  rw [isAddressOf_eq type]
  by_cases ht : isTyped type name r = true
  · rw [ht, isStale_of_isTyped ht]
    rfl
  · rw [Bool.not_eq_true] at ht
    rw [ht, Bool.false_or, Bool.and_not_self]

theorem filter_other (z : Zone) : (z.filter fun r => !isStale type name r).filter
    (fun r => !isAddressOf name r) = z.filter fun r => !isAddressOf name r := by
  rw [List.filter_filter]
  congr 1
  funext r
  rw [isAddressOf_eq type]
  cases isTyped type name r <;> cases isStale type name r <;> rfl

theorem isAddressOf_written (id : JsString) :
    isAddressOf name (written type name ip id) = true := by
  rw [isAddressOf_eq type, isTyped_written, Bool.true_or]

theorem addresses_syncedZone (type : RecordType) (ip : JsString) (hids : (z.map CfRecord.id).Nodup)
    (hnew : newID ∉ z.map CfRecord.id)
    (hpage : (z.filter (·.name == name)).length ≤ 100) :
    (syncedZone type newID name ip z).filter (isAddressOf name) =
        (match z.filter (isTyped type name) with
          | [] => [written type name ip newID]
          | mine :: rest =>
            written type name ip mine.id :: rest.map (replaced type name ip mine)) ∧
      (syncedZone type newID name ip z).filter (fun r => !isAddressOf name r) =
        z.filter fun r => !isAddressOf name r := by
  cases hz : z.filter (isTyped type name) with
  | nil =>
    have hone (p : CfRecord → Bool) : [written type name ip newID].filter p =
        if p (written type name ip newID) then [written type name ip newID] else [] := by
      rw [List.filter_singleton, cond_eq_ite]
    rw [syncedZone_post hids hnew hpage hz, List.filter_append, List.filter_append, filter_address,
      filter_other, hz, hone, hone, isAddressOf_written]
    simp
  | cons mine rest =>
    obtain ⟨hmine, htyped⟩ := List.mem_filter.mp (hz ▸ List.mem_cons_self : mine ∈ z.filter _)
    have haddr : ∀ r ∈ z.filter fun r => !isStale type name r,
        isAddressOf name (replaced type name ip mine r) = isAddressOf name r := by
      intro r hr
      unfold replaced
      split
      · rename_i hid
        rw [eq_of_id hids (List.mem_filter.mp hr).1 hmine hid, isAddressOf_written,
          isAddressOf_eq type, htyped, Bool.true_or]
      · rfl
    rw [syncedZone_put hids hpage hz, List.filter_map, List.filter_map, Function.comp_def,
      Function.comp_def]
    constructor
    · rw [List.filter_congr haddr, filter_address, hz, List.map_cons, replaced, if_pos rfl]
    · rw [List.filter_congr fun r hr => congrArg (!·) (haddr r hr), filter_other]
      have hsame : ∀ r ∈ z.filter fun r => !isAddressOf name r,
          replaced type name ip mine r = r := by
        intro r hr
        obtain ⟨hmem, hno⟩ := List.mem_filter.mp hr
        refine if_neg fun hid => ?_
        rw [eq_of_id hids hmem hmine hid, isAddressOf_eq type, htyped] at hno
        cases hno
      rw [List.map_congr_left hsame, List.map_id']

theorem address_syncedZone (type : RecordType) (ip : JsString) (hids : (z.map CfRecord.id).Nodup)
    (hnew : newID ∉ z.map CfRecord.id) (hpage : (z.filter (·.name == name)).length ≤ 100)
    (hle : (z.filter (isTyped type name)).length ≤ 1) :
    ∃ id, (syncedZone type newID name ip z).filter (isAddressOf name) =
      [written type name ip id] := by
  rw [(addresses_syncedZone type ip hids hnew hpage).1]
  cases hz : z.filter (isTyped type name) with
  | nil => exact ⟨newID, rfl⟩
  | cons mine rest =>
    rw [hz, List.length_cons] at hle
    have hrest : rest = [] := List.eq_nil_of_length_eq_zero (by omega)
    subst hrest
    exact ⟨mine.id, rfl⟩

end

/-- Every call succeeding, the name is left with one address, and with its
other records as they were, exactly when it had at most one record of the
address's type. -/
theorem synced_one_address_iff (z : Zone) (type : RecordType) (name ip newID : JsString)
    (hids : (z.map CfRecord.id).Nodup) (hnew : newID ∉ z.map CfRecord.id)
    (hpage : (z.filter (·.name == name)).length ≤ 100) (htype : recordTypeFor ip = some type) :
    (syncHostRecord .all newID name ip z).1 = .synced type ∧
    (((∃ r, (syncHostRecord .all newID name ip z).2.filter (isAddressOf name) = [r] ∧
          r.type = type.text ∧ r.content = ip ∧ r.proxied = false) ∧
        (syncHostRecord .all newID name ip z).2.filter (fun r => !isAddressOf name r) =
          z.filter fun r => !isAddressOf name r) ↔
      (z.filter (isTyped type name)).length ≤ 1) := by
  rw [syncHostRecord_all htype hpage]
  refine ⟨rfl, ?_⟩
  obtain ⟨haddr, hother⟩ := addresses_syncedZone type ip hids hnew hpage
  constructor
  · rintro ⟨⟨r, hone, -⟩, -⟩
    rw [haddr] at hone
    have hlen := congrArg List.length hone
    cases hz : z.filter (isTyped type name) with
    | nil => exact Nat.zero_le 1
    | cons mine rest =>
      rw [hz] at hlen
      simp only [List.length_cons, List.length_map, List.length_nil] at hlen ⊢
      omega
  · intro hle
    obtain ⟨id, hone⟩ := address_syncedZone type ip hids hnew hpage hle
    exact ⟨⟨_, hone, rfl, rfl, rfl⟩, hother⟩

namespace Sample

def address (id type content : String) : CfRecord :=
  ⟨js id, js type, js "host.grantd.example", js content, false⟩

def zoneText : CfRecord := address "txt" "TXT" "unrelated"

end Sample

/-- A name that moves from IPv6 to IPv4 keeps its other records. -/
theorem synced_one_address_sample : (syncHostRecord .all (js "new") (js "host.grantd.example")
      (js "203.0.113.7") [Sample.zoneText, Sample.address "old" "AAAA" "2001:db8::1"]).1 =
        .synced .a ∧
    ∃ r, (syncHostRecord .all (js "new") (js "host.grantd.example") (js "203.0.113.7")
        [Sample.zoneText, Sample.address "old" "AAAA" "2001:db8::1"]).2.filter
          (isAddressOf (js "host.grantd.example")) = [r] ∧
      r.type = RecordType.a.text ∧ r.content = js "203.0.113.7" ∧ r.proxied = false := by
  have h := synced_one_address_iff [Sample.zoneText, Sample.address "old" "AAAA" "2001:db8::1"] .a
    (js "host.grantd.example") (js "203.0.113.7") (js "new") (by decide) (by decide)
      (by decide) (by decide)
  exact ⟨h.1, (h.2.mpr (by decide)).1⟩

/-- Of two records of the same type only the first is replaced. -/
theorem synced_two_addresses : (syncHostRecord .all (js "new") (js "host.grantd.example")
      (js "203.0.113.7") [Sample.address "one" "A" "198.51.100.1",
        Sample.address "two" "A" "198.51.100.2"]) =
    (.synced .a, [Sample.address "one" "A" "203.0.113.7",
      Sample.address "two" "A" "198.51.100.2"]) := by
  decide

end Grantd.Service
