import S3Gateway.Library.Fields
import S3Gateway.Policy.Decide
import S3Gateway.S3gw.Auth

/-! # The addresses a condition value stands for

A value of an IP operator is written as an address or as an address with a prefix length, and
stands for a block of addresses.  `parseIPValue` reads the IPv4-mapped form of a plain address
as IPv4, that of a CIDR prefix not; sources are always read as IPv4. -/

namespace S3Gateway.S3gw

open Go Policy

/-! ## Blocks -/

/-- The address and the prefix length that a value writes down; a plain address has all its
    bits. -/
def writtenBlock (v : Bytes) : Option (Addr × Nat) :=
  if ch '/' ∈ v then (parsePrefix v).bind fun p => p.bits.map (p.ip, ·)
  else (parseAddr v).map fun a => (a, a.bitLen)

/-- The block written down: one within the IPv4-mapped addresses is the IPv4 block. -/
def denotedBlock : Addr × Nat → Addr × Nat
  | (a, n) => if a.is4In6 ∧ 96 ≤ n then (a.unmap, n - 96) else (a, n)

/-- The source, read as IPv4 when it is mapped and without its zone, is in the block. -/
def InBlock (v : Bytes) (source : Addr) : Prop :=
  ∃ block, writtenBlock v = some block ∧
    source.unmap.AgreesOn (denotedBlock block).2 (denotedBlock block).1

/-- A CIDR prefix within the IPv4-mapped addresses. -/
def MappedCIDR (v : Bytes) : Prop :=
  ch '/' ∈ v ∧ ∃ a n, writtenBlock v = some (a, n) ∧ a.is4In6 = true ∧ 96 ≤ n

/-- An `IpAddress` condition with just this value, asked as `Decide` asks it. -/
def valueMatches (v : Bytes) (source : Addr) : Bool :=
  (Condition.compile { ipAddress := [v], notIPAddress := [] }).any
    (·.matches (RequestContext.unmap ⟨source⟩))

/-! ## What the parsed value holds -/

section Value

variable {v : Bytes} {p : Prefix} {s : Addr}

/-- The prefix of an accepted value, with the text its address was read from. -/
theorem parseIPValue_eq_some (h : parseIPValue v = some p) :
    ∃ text a n, parseAddr text = some a ∧ a.zone = [] ∧ n ≤ a.bitLen ∧ writtenBlock v = some (a, n) ∧
      (ch '/' ∈ v ∧ p = ⟨a, some n⟩ ∨ ch '/' ∉ v ∧ n = a.bitLen ∧ p = ⟨a.unmap, some a.unmap.bitLen⟩) := by
  unfold parseIPValue at h
  unfold writtenBlock
  split at h
  · rename_i hslash
    obtain ⟨text, a, n, htext, hzone, hn, rfl⟩ := parsePrefix_eq_some h
    rw [if_pos hslash, h]
    exact ⟨text, a, n, htext, hzone, hn, rfl, .inl ⟨hslash, rfl⟩⟩
  · rename_i hslash
    obtain ⟨a, ha, h⟩ := Option.bind_eq_some_iff.mp h
    split at h
    · rename_i hzone
      rw [List.isEmpty_iff] at hzone
      rw [prefixFrom_eq (Addr.isValid_unmap (isValid_of_parseAddr ha)) (Addr.zone_unmap hzone) le_rfl] at h
      cases h
      rw [if_neg hslash, ha]
      exact ⟨v, a, a.bitLen, ha, hzone, le_rfl, rfl, .inr ⟨hslash, rfl, rfl⟩⟩
    · cases h

theorem valueMatches_iff {a : Addr} {n : Nat} (h : parseIPValue v = some ⟨a, some n⟩) (hn : n ≤ a.bitLen) :
    valueMatches v s = true ↔ s.unmap.AgreesOn n a ∧ s.unmap.zone = [] := by
  have hcompile : Condition.compile { ipAddress := [v], notIPAddress := [] } =
      some { ipAddress := [⟨a, some n⟩], notIPAddress := [] } := by
    simp [Condition.compile, parsePrefixes, h]
  rw [← Prefix.contains_iff (p := ⟨a, some n⟩) rfl hn, valueMatches, hcompile, Option.any_some]
  cases hs : s.unmap with
  | zero => simp [CompiledCondition.matches, RequestContext.unmap, hs, Addr.isValid, Prefix.contains]
  | v4 b => simp [CompiledCondition.matches, RequestContext.unmap, hs, Addr.isValid, prefixesContain]
  | v6 b z => simp [CompiledCondition.matches, RequestContext.unmap, hs, Addr.isValid, prefixesContain]

theorem not_agreesOn_mapped {a : Addr} {n : Nat} (ha : a.is4In6 = true) (hn : 96 ≤ n) :
    ¬s.unmap.AgreesOn n a := by
  obtain ⟨b, z, rfl, -⟩ := Addr.mapped_cases ha
  intro hagree
  have hunmapped := Addr.is4In6_unmap s
  cases hs : s.unmap with
  | v6 c z' =>
    rw [hs] at hagree hunmapped
    rw [is4In6_of_agree hn hagree ha] at hunmapped
    cases hunmapped
  | _ =>
    rw [hs] at hagree
    exact hagree

theorem denotedBlock_plain (a : Addr) : denotedBlock (a, a.bitLen) = (a.unmap, a.unmap.bitLen) := by
  rw [denotedBlock]
  cases hmapped : a.is4In6 with
  | true =>
    obtain ⟨b, z, rfl, hunmap⟩ := Addr.mapped_cases hmapped
    rw [if_pos ⟨rfl, by simp [Addr.bitLen]⟩, hunmap]
    rfl
  | false =>
    rw [Addr.unmap_of_not_mapped hmapped]
    simp

theorem valueMatches_iff_inBlock (h : parseIPValue v = some p) :
    valueMatches v s = true ↔ InBlock v s ∧ s.unmap.zone = [] ∧ ¬MappedCIDR v := by
  obtain ⟨text, a, n, -, -, hn, hwritten, ⟨hslash, rfl⟩ | ⟨hslash, rfl, rfl⟩⟩ := parseIPValue_eq_some h
  · rw [valueMatches_iff h hn]
    have hcidr : MappedCIDR v ↔ a.is4In6 = true ∧ 96 ≤ n := by
      simp [MappedCIDR, hslash, hwritten]
    have hblock : InBlock v s ↔ s.unmap.AgreesOn (denotedBlock (a, n)).2 (denotedBlock (a, n)).1 := by
      simp [InBlock, hwritten]
    rw [hcidr, hblock, denotedBlock]
    by_cases hmapped : a.is4In6 = true ∧ 96 ≤ n
    · simp [hmapped, not_agreesOn_mapped hmapped.1 hmapped.2]
    · rw [if_neg hmapped]
      simp [hmapped]
  · have hblock : InBlock v s ↔ s.unmap.AgreesOn a.unmap.bitLen a.unmap := by
      simp [InBlock, hwritten, denotedBlock_plain]
    have hcidr : ¬MappedCIDR v := fun hcidr => hslash hcidr.1
    rw [valueMatches_iff h le_rfl, hblock]
    simp [hcidr]

end Value

/-! ## Sources -/

/-- A request of which only the remote address is given. -/
def requestFrom (remoteAddr : Bytes) : Request where
  method := []
  requestURI := []
  url := {}
  host := []
  header := []
  contentLength := 0
  remoteAddr := remoteAddr

theorem colon_not_mem_of_parseIPv4Fields {s : Bytes} {os : List Nat} (h : parseIPv4Fields s = some os) :
    ch ':' ∉ s := by
  have hoctet {part : Bytes} {o : Nat} (hpart : parseOctet part = some o) : ch ':' ∉ part := by
    intro hmem
    unfold parseOctet at hpart
    split at hpart
    · cases hpart
    · rename_i hdigits
      simp only [Bool.or_eq_true, Bool.not_eq_true', not_or, Bool.not_eq_false] at hdigits
      exact absurd (List.all_eq_true.mp hdigits.1.2 _ hmem) (by decide)
  intro hmem
  -- a colon would stand in one of the four fields, and these are digits
  have hjoin : [ch '.'].intercalate (s.splitOn (ch '.')) = s := List.intercalate_splitOn (ch '.')
  rw [← hjoin] at hmem
  unfold parseIPv4Fields split at h
  split at h
  · rename_i a b c d hsplit
    rw [hsplit] at hmem
    simp only [Option.bind_eq_bind, Option.bind_eq_some_iff] at h
    obtain ⟨_, ha, _, hb, _, hc, _, hd, -⟩ := h
    rcases Fields.mem_intercalate hmem with hdot | ⟨part, hpart, hcolon⟩
    · exact absurd hdot (by decide)
    · simp only [List.mem_cons, List.not_mem_nil, or_false] at hpart
      rcases hpart with rfl | rfl | rfl | rfl
      · exact hoctet ha hcolon
      · exact hoctet hb hcolon
      · exact hoctet hc hcolon
      · exact hoctet hd hcolon
  · cases h

theorem parseAddrPort_bracketed {text : Bytes} {b : BitVec 128} {z : Bytes}
    (h : parseAddr text = some (.v6 b z)) :
    parseAddrPort (ch '[' :: text ++ str "]:1") = some (.v6 b z) := by
  have hcolon : ch ':' ∈ ch '[' :: text ++ str "]:1" := List.mem_append_right _ (by decide)
  have hport : ((ch '[' :: text ++ str "]:1").reverse.takeWhile (· ≠ ch ':')).reverse = str "1" := by
    rw [List.reverse_append]
    rfl
  have hip : (ch '[' :: text ++ str "]:1").take ((ch '[' :: text ++ str "]:1").length - 1 - (str "1").length) =
      ch '[' :: text ++ [ch ']'] := by
    have hsplit : ch '[' :: text ++ str "]:1" = (ch '[' :: text ++ [ch ']']) ++ str ":1" := by
      rw [List.append_assoc]
      rfl
    rw [hsplit]
    refine List.take_left' ?_
    simp [show (str ":1").length = 2 from rfl, show (str "1").length = 1 from rfl]
  have hinner : ((ch '[' :: text ++ [ch ']']).drop 1).dropLast = text := by simp
  rw [parseAddrPort, if_neg (not_not.mpr hcolon)]
  simp only [hport, hip, hinner, h]
  have hlast : (ch '[' :: text ++ [ch ']']).getLast? = some (ch ']') := List.getLast?_concat
  have hclosed : ¬((ch '[' :: text ++ [ch ']']).length < 2 ∨ (ch '[' :: text ++ [ch ']']).getLast? ≠ some (ch ']')) := by
    rw [hlast]
    simp
  rw [if_neg (by simp; decide), if_pos (by simp), if_neg hclosed]

theorem exists_remoteIP {text : Bytes} {a : Addr} (h : parseAddr text = some a) : ∃ r, remoteIP r = a := by
  rcases parseAddr_eq_some h with ⟨os, hos, rfl⟩ | ⟨b, z, rfl⟩
  · have hport : parseAddrPort text = none := if_pos (colon_not_mem_of_parseIPv4Fields hos)
    refine ⟨requestFrom text, ?_⟩
    rw [remoteIP, requestFrom, hport, Option.none_or, h]
    rfl
  · refine ⟨requestFrom (ch '[' :: text ++ str "]:1"), ?_⟩
    rw [remoteIP, requestFrom, parseAddrPort_bracketed h]
    rfl

/-- A source that is next to the mapped addresses. -/
def besideMapped : Bytes := str "[::fffe:0:0]:1"

theorem agreesOn_besideMapped {b : BitVec 128} {z : Bytes} {n : Nat} (hmapped : (Addr.v6 b z).is4In6 = true)
    (hn : n < 96) : (remoteIP (requestFrom besideMapped)).unmap.AgreesOn n (.v6 b z) := by
  have hsource : (remoteIP (requestFrom besideMapped)).unmap = .v6 0xFFFE00000000 [] := by decide +kernel
  have hhigh : ∀ i < 95, (0xFFFE00000000 : BitVec 128).getMsbD i = (0xFFFF : BitVec 96).getMsbD i := by
    decide +kernel
  rw [hsource]
  intro i hi
  have hb : b.extractLsb' 32 96 = 0xFFFF := eq_of_beq hmapped
  have hindex : 128 - (32 + 96 - i) = i := by omega
  rw [hhigh i (by omega), ← hb, BitVec.getMsbD_extractLsb', hindex]
  simp [show i < 96 by omega]

theorem exists_valueMatches {v : Bytes} {p : Prefix} (h : parseIPValue v = some p) (hcidr : ¬MappedCIDR v) :
    ∃ r, valueMatches v (remoteIP r) = true := by
  obtain ⟨text, a, n, htext, hzone, hn, hwritten, ⟨hslash, rfl⟩ | ⟨hslash, rfl, rfl⟩⟩ := parseIPValue_eq_some h
  · cases hmapped : a.is4In6 with
    | true =>
      have hshort : n < 96 := by
        by_contra hlong
        exact hcidr ⟨hslash, a, n, hwritten, hmapped, by omega⟩
      obtain ⟨b, z, rfl, -⟩ := Addr.mapped_cases hmapped
      refine ⟨requestFrom besideMapped, (valueMatches_iff h hn).mpr ⟨agreesOn_besideMapped hmapped hshort, ?_⟩⟩
      decide +kernel
    | false =>
      obtain ⟨r, hr⟩ := exists_remoteIP htext
      refine ⟨r, (valueMatches_iff h hn).mpr ?_⟩
      rw [hr, Addr.unmap_of_not_mapped hmapped]
      exact ⟨Addr.agreesOn_self (isValid_of_parseAddr htext) n, hzone⟩
  · obtain ⟨r, hr⟩ := exists_remoteIP htext
    refine ⟨r, (valueMatches_iff h le_rfl).mpr ?_⟩
    rw [hr]
    exact ⟨Addr.agreesOn_self (Addr.isValid_unmap (isValid_of_parseAddr htext)) _, Addr.zone_unmap hzone⟩

/-- A value means its block to a source exactly when the source, if it is in the block, has no
    zone and the value is no mapped CIDR prefix; and just these prefixes never match. -/
theorem valueMatches_inBlock_iff {v : Bytes} {p : Prefix} (h : parseIPValue v = some p) (r : Request) :
    ((valueMatches v (remoteIP r) = true ↔ InBlock v (remoteIP r)) ↔
        (InBlock v (remoteIP r) → (remoteIP r).unmap.zone = [] ∧ ¬MappedCIDR v)) ∧
      ((∃ r, valueMatches v (remoteIP r) = true) ↔ ¬MappedCIDR v) := by
  refine ⟨?_, ?_, exists_valueMatches h⟩
  · rw [valueMatches_iff_inBlock h]
    exact ⟨fun hiff hin => (hiff.mpr hin).2, fun hclean => ⟨And.left, fun hin => ⟨hin, hclean hin⟩⟩⟩
  · rintro ⟨r, hmatches⟩
    exact ((valueMatches_iff_inBlock h).mp hmatches).2.2

/-- `::ffff:10.0.0.0/104` stands for `10.0.0.0/8` and matches nothing. -/
theorem mappedPrefix_void :
    parseIPValue (str "::ffff:10.0.0.0/104") = some ⟨.v6 0xFFFF0A000000 [], some 104⟩ ∧
      InBlock (str "::ffff:10.0.0.0/104") (remoteIP (requestFrom (str "10.1.2.3:80"))) ∧
      ∀ r, valueMatches (str "::ffff:10.0.0.0/104") (remoteIP r) = false := by
  have hparse : parseIPValue (str "::ffff:10.0.0.0/104") = some ⟨.v6 0xFFFF0A000000 [], some 104⟩ := by
    decide +kernel
  have hwritten : writtenBlock (str "::ffff:10.0.0.0/104") = some (.v6 0xFFFF0A000000 [], 104) := by
    decide +kernel
  refine ⟨hparse, ⟨_, hwritten, ?_⟩, ?_⟩
  · have hsource : (remoteIP (requestFrom (str "10.1.2.3:80"))).unmap = .v4 0x0A010203 := by decide +kernel
    rw [hsource]
    change ∀ i < 8, _ = _
    decide +kernel
  · intro r
    have hcidr : MappedCIDR (str "::ffff:10.0.0.0/104") := ⟨by decide +kernel, _, _, hwritten, rfl, by decide⟩
    rw [← Bool.not_eq_true, valueMatches_iff_inBlock hparse]
    exact fun hmatches => hmatches.2.2 hcidr

theorem privateNetwork_matches :
    valueMatches (str "10.0.0.0/8") (remoteIP (requestFrom (str "[::ffff:10.1.2.3]:80"))) = true ∧
      InBlock (str "10.0.0.0/8") (remoteIP (requestFrom (str "[::ffff:10.1.2.3]:80"))) := by
  have hmatches : valueMatches (str "10.0.0.0/8") (remoteIP (requestFrom (str "[::ffff:10.1.2.3]:80"))) = true := by
    decide +kernel
  have hparse : parseIPValue (str "10.0.0.0/8") = some ⟨.v4 0x0A000000, some 8⟩ := by decide +kernel
  have hwritten : writtenBlock (str "10.0.0.0/8") = some (.v4 0x0A000000, 8) := by decide +kernel
  have hclean : ¬MappedCIDR (str "10.0.0.0/8") := by
    rintro ⟨-, a, n, hother, hmapped, -⟩
    cases hwritten.symm.trans hother
    cases hmapped
  have hiff := (valueMatches_inBlock_iff hparse (requestFrom (str "[::ffff:10.1.2.3]:80"))).1.mpr
    fun _ => ⟨by decide +kernel, hclean⟩
  exact ⟨hmatches, hiff.mp hmatches⟩

end S3Gateway.S3gw
