import Cooket.AddressBlockProofs
import Cooket.GoTextProofs

/-! # Where the remote image fetcher connects

    A client of the API may name an image by URL.  `fetchRemoteImage` checks
    the URL and resolves its host, follows redirects with the same check, and
    gives its transport a dialer that resolves the host AGAIN and skips the
    addresses `isPrivateImageIP` knows.

    The dialer's check is the one that counts: no answer of the resolver, at
    whatever moment, is dialled that the predicate rejects.  What the
    predicate lets through is another matter.  `special_iff` compares it with
    the IANA registries of special-purpose addresses: it rejects only special
    addresses, and misses those of the blocks in `gapsV4` and `gapsV6`, among
    them the shared address space, and the NAT64 and 6to4 addresses that
    stand for a loopback or private host.  `image_contacts_law` says when a
    fetch contacts public hosts only. -/

namespace RemoteImage

open AddressBlock GoText

/-! ## Addresses -/

/-- A `net.IP`, of 4 or 16 bytes. -/
structure IP where
  bytes : List UInt8
  length_eq : bytes.length = 4 ∨ bytes.length = 16
  deriving DecidableEq

/-- `v4InV6Prefix`. -/
def v4InV6Prefix : List UInt8 := List.replicate 10 0 ++ [0xff, 0xff]

namespace IP

/-- `To4`: the four bytes of an IPv4 address in either of its forms. -/
def to4 (ip : IP) : Option (List UInt8) :=
  if ip.bytes.length = 4 then some ip.bytes
  else if ip.bytes.length = 16 ∧ ip.bytes.take 12 = v4InV6Prefix
  then some (ip.bytes.drop 12)
  else none

/-- `ip[i]`. -/
def byteAt (bytes : List UInt8) (i : Nat) : UInt8 := bytes.getD i 0

/-- `Equal` with an address of 16 bytes. -/
def equal (ip : IP) (x : List UInt8) : Bool :=
  if ip.bytes.length = x.length then ip.bytes == x
  else x.take 12 == v4InV6Prefix && ip.bytes == x.drop 12

/-- `IPv4zero`. -/
def ipv4zero : List UInt8 := v4InV6Prefix ++ [0, 0, 0, 0]

/-- `IPv6unspecified`. -/
def ipv6unspecified : List UInt8 := List.replicate 16 0

/-- `IPv6loopback`. -/
def ipv6loopback : List UInt8 := List.replicate 15 0 ++ [1]

def isUnspecified (ip : IP) : Bool :=
  ip.equal ipv4zero || ip.equal ipv6unspecified

def isLoopback (ip : IP) : Bool :=
  match ip.to4 with
  | some ip4 => byteAt ip4 0 == 127
  | none => ip.equal ipv6loopback

def isPrivate (ip : IP) : Bool :=
  match ip.to4 with
  | some ip4 => byteAt ip4 0 == 10 ||
      (byteAt ip4 0 == 172 && byteAt ip4 1 &&& 0xf0 == 16) ||
      (byteAt ip4 0 == 192 && byteAt ip4 1 == 168)
  | none => ip.bytes.length == 16 && byteAt ip.bytes 0 &&& 0xfe == 0xfc

def isInterfaceLocalMulticast (ip : IP) : Bool :=
  ip.bytes.length == 16 && byteAt ip.bytes 0 == 0xff &&
    byteAt ip.bytes 1 &&& 0x0f == 0x01

def isLinkLocalMulticast (ip : IP) : Bool :=
  match ip.to4 with
  | some ip4 => byteAt ip4 0 == 224 && byteAt ip4 1 == 0 && byteAt ip4 2 == 0
  | none => ip.bytes.length == 16 && byteAt ip.bytes 0 == 0xff &&
      byteAt ip.bytes 1 &&& 0x0f == 0x02

def isLinkLocalUnicast (ip : IP) : Bool :=
  match ip.to4 with
  | some ip4 => byteAt ip4 0 == 169 && byteAt ip4 1 == 254
  | none => ip.bytes.length == 16 && byteAt ip.bytes 0 == 0xfe &&
      byteAt ip.bytes 1 &&& 0xc0 == 0x80

end IP

def isPrivateImageIP (ip : IP) : Bool :=
  ip.isLoopback || ip.isPrivate || ip.isLinkLocalUnicast ||
    ip.isLinkLocalMulticast || ip.isUnspecified ||
    ip.isInterfaceLocalMulticast

/-! ## The registries -/

/-- Whole bytes of a block. -/
def octets (bytes : List UInt8) : Block := bytes.map fun b => (0xff, b)

/-- The standing of a block: its addresses are reachable from everywhere,
    they are not, or they stand for the IPv4 address at an offset. -/
inductive Standing where
  | reachable
  | special
  | embeds (offset : Nat)
  deriving DecidableEq

/-- The IPv4 special-purpose addresses and the multicast and reserved ones,
    exceptions before the blocks they are in. -/
def registryV4 : List (Block × Standing) :=
  [ (octets [0], .special),                        -- this network
    (octets [10], .special),                       -- private use
    (octets [100] ++ [(0xc0, 64)], .special),      -- shared address space
    (octets [127], .special),                      -- loopback
    (octets [169, 254], .special),                 -- link local
    (octets [172] ++ [(0xf0, 16)], .special),      -- private use
    (octets [192, 0, 0, 9], .reachable),           -- port control anycast
    (octets [192, 0, 0, 10], .reachable),          -- TURN anycast
    (octets [192, 0, 0], .special),                -- protocol assignments
    (octets [192, 0, 2], .special),                -- documentation
    (octets [192, 88, 99], .special),              -- 6to4 relays, withdrawn
    (octets [192, 168], .special),                 -- private use
    (octets [198] ++ [(0xfe, 18)], .special),      -- benchmarking
    (octets [198, 51, 100], .special),             -- documentation
    (octets [203, 0, 113], .special),              -- documentation
    ([(0xf0, 224)], .special),                     -- multicast
    ([(0xf0, 240)], .special) ]                    -- reserved, broadcast

/-- The IPv6 special-purpose and multicast addresses, and all that is reserved
    outside the global unicast block `2000::/3`.  The IPv4-mapped ones are IPv4
    addresses to `To4`. -/
def registryV6 : List (Block × Standing) :=
  [ (octets IP.ipv6unspecified, .special),
    (octets IP.ipv6loopback, .special),
    (octets (List.replicate 12 0), .embeds 12),    -- IPv4-compatible
    (octets (List.replicate 8 0 ++ [0xff, 0xff, 0, 0]),
      .embeds 12),                                 -- IPv4-translated
    (octets ([0, 0x64, 0xff, 0x9b] ++ List.replicate 8 0),
      .embeds 12),                                 -- NAT64
    (octets [0, 0x64, 0xff, 0x9b, 0, 1], .special), -- NAT64, local use
    (octets [0], .special),                        -- reserved, to 1fff::
    (octets [1, 0, 0, 0, 0, 0, 0, 0], .special),   -- discard only
    (octets [1, 0, 0, 0, 0, 0, 0, 1], .special),   -- dummy prefix
    (octets [1], .special),
    ([(0xfe, 2)], .special),
    ([(0xfc, 4)], .special),
    ([(0xf8, 8)], .special),
    ([(0xf0, 0x10)], .special),
    (octets ([0x20, 1, 0, 1] ++ List.replicate 11 0 ++ [1]),
      .reachable),                                 -- port control anycast
    (octets ([0x20, 1, 0, 1] ++ List.replicate 11 0 ++ [2]),
      .reachable),                                 -- TURN anycast
    (octets ([0x20, 1, 0, 1] ++ List.replicate 11 0 ++ [3]),
      .reachable),                                 -- service registration
    (octets [0x20, 1, 0, 3], .reachable),          -- AMT
    (octets [0x20, 1, 0, 4, 1, 0x12], .reachable), -- AS112
    (octets [0x20, 1, 0] ++ [(0xf0, 0x20)], .reachable), -- ORCHIDv2
    (octets [0x20, 1, 0] ++ [(0xf0, 0x30)], .reachable), -- remote ID
    (octets [0x20, 1] ++ [(0xfe, 0)], .special),   -- protocol assignments
    (octets [0x20, 1, 0x0d, 0xb8], .special),      -- documentation
    (octets [0x20, 2], .embeds 2),                 -- 6to4
    (octets [0x3f, 0xff] ++ [(0xf0, 0)], .special), -- documentation
    (octets [0x5f, 0], .special),                  -- segment routing
    ([(0xe0, 0x40)], .special),                    -- reserved, from 4000::
    ([(0xe0, 0x60)], .special),
    ([(0xe0, 0x80)], .special),
    ([(0xe0, 0xa0)], .special),
    ([(0xe0, 0xc0)], .special),
    ([(0xf0, 0xe0)], .special),
    ([(0xf8, 0xf0)], .special),
    ([(0xfc, 0xf8)], .special),
    ([(0xfe, 0xfc)], .special),                    -- unique local
    (octets [0xfe] ++ [(0x80, 0)], .special),      -- reserved
    (octets [0xfe] ++ [(0xc0, 0x80)], .special),   -- link local
    (octets [0xfe] ++ [(0xc0, 0xc0)], .special),   -- site local, withdrawn
    (octets [0xff], .special) ]                    -- multicast

/-- The standing an IPv6 address has by itself, or by the IPv4 address it
    stands for. -/
def special (tableV4 tableV6 : List (Block × Standing)) (ip : IP) : Bool :=
  match ip.to4 with
  | some ip4 => standing .reachable tableV4 ip4 == .special
  | none =>
      match standing .reachable tableV6 ip.bytes with
      | .reachable => false
      | .special => true
      | .embeds offset =>
          standing .reachable registryV4
            ((ip.bytes.drop offset).take 4) == .special

/-- A globally reachable unicast address. -/
def Public (ip : IP) : Prop := special registryV4 registryV6 ip = false

instance (ip : IP) : Decidable (Public ip) :=
  inferInstanceAs (Decidable (_ = _))

/-- `fec0::1` is site local; `::ffff:0:127.0.0.1` is the loopback host, and
    `::ffff:0:8.8.8.8` a public one. -/
example : ¬ Public ⟨[0xfe, 0xc0] ++ List.replicate 13 0 ++ [1], Or.inr rfl⟩ ∧
    ¬ Public ⟨List.replicate 8 0 ++ [0xff, 0xff, 0, 0, 127, 0, 0, 1],
      Or.inr rfl⟩ ∧
    Public ⟨List.replicate 8 0 ++ [0xff, 0xff, 0, 0, 8, 8, 8, 8],
      Or.inr rfl⟩ := by
  decide

/-- The special IPv4 blocks the predicate does not know.  Of `0.0.0.0/8` and
    of multicast it knows a part. -/
def gapsV4 : List (Block × Standing) :=
  [ (octets [0], .special),
    (octets [100] ++ [(0xc0, 64)], .special),
    (octets [192, 0, 0, 9], .reachable),
    (octets [192, 0, 0, 10], .reachable),
    (octets [192, 0, 0], .special),
    (octets [192, 0, 2], .special),
    (octets [192, 88, 99], .special),
    (octets [198] ++ [(0xfe, 18)], .special),
    (octets [198, 51, 100], .special),
    (octets [203, 0, 113], .special),
    ([(0xf0, 224)], .special),
    ([(0xf0, 240)], .special) ]

/-- The IPv6 blocks the predicate does not know. -/
def gapsV6 : List (Block × Standing) :=
  [ (octets (List.replicate 12 0), .embeds 12),
    (octets (List.replicate 8 0 ++ [0xff, 0xff, 0, 0]), .embeds 12),
    (octets ([0, 0x64, 0xff, 0x9b] ++ List.replicate 8 0), .embeds 12),
    (octets [0, 0x64, 0xff, 0x9b, 0, 1], .special),
    (octets [0], .special),
    (octets [1, 0, 0, 0, 0, 0, 0, 0], .special),
    (octets [1, 0, 0, 0, 0, 0, 0, 1], .special),
    (octets [1], .special),
    ([(0xfe, 2)], .special),
    ([(0xfc, 4)], .special),
    ([(0xf8, 8)], .special),
    ([(0xf0, 0x10)], .special),
    (octets ([0x20, 1, 0, 1] ++ List.replicate 11 0 ++ [1]), .reachable),
    (octets ([0x20, 1, 0, 1] ++ List.replicate 11 0 ++ [2]), .reachable),
    (octets ([0x20, 1, 0, 1] ++ List.replicate 11 0 ++ [3]), .reachable),
    (octets [0x20, 1, 0, 3], .reachable),
    (octets [0x20, 1, 0, 4, 1, 0x12], .reachable),
    (octets [0x20, 1, 0] ++ [(0xf0, 0x20)], .reachable),
    (octets [0x20, 1, 0] ++ [(0xf0, 0x30)], .reachable),
    (octets [0x20, 1] ++ [(0xfe, 0)], .special),
    (octets [0x20, 1, 0x0d, 0xb8], .special),
    (octets [0x20, 2], .embeds 2),
    (octets [0x3f, 0xff] ++ [(0xf0, 0)], .special),
    (octets [0x5f, 0], .special),
    ([(0xe0, 0x40)], .special),
    ([(0xe0, 0x60)], .special),
    ([(0xe0, 0x80)], .special),
    ([(0xe0, 0xa0)], .special),
    ([(0xe0, 0xc0)], .special),
    ([(0xf0, 0xe0)], .special),
    ([(0xf8, 0xf0)], .special),
    ([(0xfc, 0xf8)], .special),
    (octets [0xfe] ++ [(0x80, 0)], .special),
    (octets [0xfe] ++ [(0xc0, 0xc0)], .special),
    (octets [0xff], .special) ]

/-! ## The blocks the predicate knows -/

/-- The tests of the predicate on an IPv4 address. -/
def knownV4 : List Block :=
  [ octets [127], octets [10], octets [172] ++ [(0xf0, 16)],
    octets [192, 168], octets [169, 254], octets [224, 0, 0],
    octets [0, 0, 0, 0] ]

/-- Its tests on the other addresses. -/
def knownV6 : List Block :=
  [ octets IP.ipv6loopback, [(0xfe, 0xfc)], octets [0xfe] ++ [(0xc0, 0x80)],
    octets [0xff] ++ [(0x0f, 2)], octets IP.ipv6unspecified,
    octets [0xff] ++ [(0x0f, 1)] ]

@[simp] theorem and_ff (x : UInt8) : x &&& 0xff = x := by
  rw [show (0xff : UInt8) = -1 from rfl, UInt8.and_neg_one]

/-- Whole bytes cover what begins with them. -/
theorem covers_octets {lead bytes : List UInt8} :
    covers (octets lead) bytes = true ↔ lead <+: bytes := by
  induction lead generalizing bytes with
  | nil => exact iff_of_true rfl List.nil_prefix
  | cons b lead ih =>
      cases bytes with
      | nil =>
          refine iff_of_false Bool.false_ne_true ?_
          intro h
          exact absurd (List.prefix_nil.mp h) (List.cons_ne_nil _ _)
      | cons x bytes =>
          show (x &&& 0xff == b && covers (octets lead) bytes) = true ↔ _
          rw [and_ff, Bool.and_eq_true, beq_iff_eq, ih,
            List.cons_prefix_cons, eq_comm]

/-- Sixteen bytes cover themselves only. -/
theorem covers_whole {lead bytes : List UInt8}
    (h : lead.length = bytes.length) :
    covers (octets lead) bytes = (bytes == lead) := by
  rw [Bool.eq_iff_iff, covers_octets, beq_iff_eq]
  constructor
  · intro hp
    exact (hp.eq_of_length h).symm
  · rintro rfl
    exact List.prefix_rfl

/-- The two forms of an IPv4 address. -/
theorem to4_some {ip : IP} {ip4 : List UInt8} (h : ip.to4 = some ip4) :
    ip4.length = 4 ∧
      (ip.bytes = ip4 ∨ ip.bytes = v4InV6Prefix ++ ip4) := by
  unfold IP.to4 at h
  split at h
  case isTrue hfour =>
      cases h
      exact ⟨hfour, Or.inl rfl⟩
  case isFalse =>
      split at h
      case isFalse => cases h
      case isTrue hmapped =>
          cases h
          refine ⟨?_, Or.inr ?_⟩
          · rw [List.length_drop, hmapped.1]
          · rw [← hmapped.2, List.take_append_drop]

/-- Any other address has sixteen bytes. -/
theorem to4_none {ip : IP} (h : ip.to4 = none) :
    ip.bytes.length = 16 ∧ ip.bytes.take 12 ≠ v4InV6Prefix := by
  unfold IP.to4 at h
  split at h
  case isTrue => cases h
  case isFalse hfour =>
      have hlen : ip.bytes.length = 16 := ip.length_eq.resolve_left hfour
      refine ⟨hlen, ?_⟩
      intro hmapped
      rw [if_pos ⟨hlen, hmapped⟩] at h
      cases h

theorem isUnspecified_v4 {ip : IP} {ip4 : List UInt8}
    (h : ip.to4 = some ip4) :
    ip.isUnspecified = (ip4 == [0, 0, 0, 0]) := by
  obtain ⟨hlen, hform⟩ := to4_some h
  obtain ⟨a, b, c, d, rfl⟩ := List.length_eq_four.mp hlen
  rcases hform with hbytes | hbytes <;>
    simp [IP.isUnspecified, IP.equal, hbytes, IP.ipv4zero,
      IP.ipv6unspecified, v4InV6Prefix]

theorem isInterfaceLocal_v4 {ip : IP} {ip4 : List UInt8}
    (h : ip.to4 = some ip4) : ip.isInterfaceLocalMulticast = false := by
  obtain ⟨hlen, hform⟩ := to4_some h
  obtain ⟨a, b, c, d, rfl⟩ := List.length_eq_four.mp hlen
  rcases hform with hbytes | hbytes <;>
    simp [IP.isInterfaceLocalMulticast, hbytes, v4InV6Prefix, IP.byteAt]

theorem isUnspecified_v6 {ip : IP} (h : ip.to4 = none) :
    ip.isUnspecified = (ip.bytes == IP.ipv6unspecified) := by
  obtain ⟨hlen, hmapped⟩ := to4_none h
  have hzero : (ip.bytes == IP.ipv4zero) = false := by
    rw [beq_eq_false_iff_ne]
    intro heq
    exact hmapped (by rw [heq]; rfl)
  simp [IP.isUnspecified, IP.equal, hlen, IP.ipv6unspecified, hzero,
    show IP.ipv4zero.length = 16 from rfl]

/-- **KNOWN V4**: on an IPv4 address, in either form, the predicate asks
    whether one of its blocks covers it. -/
theorem isPrivateImageIP_v4 {ip : IP} {ip4 : List UInt8}
    (h : ip.to4 = some ip4) :
    isPrivateImageIP ip = knownV4.any (fun block => covers block ip4) := by
  have hunspecified := isUnspecified_v4 h
  have hlocal := isInterfaceLocal_v4 h
  obtain ⟨hlen, -⟩ := to4_some h
  obtain ⟨a, b, c, d, rfl⟩ := List.length_eq_four.mp hlen
  rw [Bool.eq_iff_iff, isPrivateImageIP, hunspecified, hlocal]
  simp [IP.isLoopback, IP.isPrivate, IP.isLinkLocalUnicast,
    IP.isLinkLocalMulticast, h, knownV4, octets, covers, IP.byteAt]
  tauto

/-- **KNOWN V6**: and so it does on an IPv6 address. -/
theorem isPrivateImageIP_v6 {ip : IP} (h : ip.to4 = none) :
    isPrivateImageIP ip =
      knownV6.any (fun block => covers block ip.bytes) := by
  have hunspecified := isUnspecified_v6 h
  obtain ⟨hlen, -⟩ := to4_none h
  have hloop : ip.isLoopback = (ip.bytes == IP.ipv6loopback) := by
    simp [IP.isLoopback, h, IP.equal, hlen,
      show IP.ipv6loopback.length = 16 from rfl]
  have h1 : covers (octets IP.ipv6loopback) ip.bytes =
      (ip.bytes == IP.ipv6loopback) := covers_whole hlen.symm
  have h2 : covers (octets IP.ipv6unspecified) ip.bytes =
      (ip.bytes == IP.ipv6unspecified) := covers_whole hlen.symm
  obtain ⟨a, b, rest, hbytes⟩ : ∃ a b rest, ip.bytes = a :: b :: rest := by
    rcases hb : ip.bytes with _ | ⟨a, _ | ⟨b, rest⟩⟩
    · rw [hb] at hlen
      cases hlen
    · rw [hb] at hlen
      cases hlen
    · exact ⟨a, b, rest, rfl⟩
  have hrest : rest.length + 1 + 1 = 16 := by
    rw [hbytes] at hlen
    exact hlen
  rw [Bool.eq_iff_iff, isPrivateImageIP, hunspecified, hloop]
  simp only [knownV6, List.any_cons, List.any_nil, h1, h2]
  simp [IP.isPrivate, IP.isLinkLocalUnicast, IP.isLinkLocalMulticast,
    IP.isInterfaceLocalMulticast, h, octets, covers, IP.byteAt, hbytes, hrest]
  tauto

/-! ## Against the registries -/

/-- **NO FALSE ALARM**: what the predicate rejects is special. -/
theorem special_of_private {ip : IP} (h : isPrivateImageIP ip = true) :
    special registryV4 registryV6 ip = true := by
  cases hform : ip.to4 with
  | some ip4 =>
      rw [isPrivateImageIP_v4 hform, List.any_eq_true] at h
      obtain ⟨block, hblock, hcov⟩ := h
      have hsettled : ∀ block ∈ knownV4,
          settles .special block registryV4 = true := by decide
      rw [special, hform]
      show (standing _ registryV4 ip4 == _) = true
      rw [standing_of_settles hcov (hsettled block hblock)]
      rfl
  | none =>
      rw [isPrivateImageIP_v6 hform, List.any_eq_true] at h
      obtain ⟨block, hblock, hcov⟩ := h
      have hsettled : ∀ block ∈ knownV6,
          settles .special block registryV6 = true := by decide
      simp only [special, hform]
      rw [standing_of_settles hcov (hsettled block hblock)]

/-- The gaps are the registry without the rows the predicate knows. -/
theorem gapsV4_eq : gapsV4 =
    registryV4.filter (fun row => !knownV4.contains row.1) := by
  decide

theorem gapsV6_eq : gapsV6 =
    registryV6.filter (fun row => !knownV6.contains row.1) := by
  decide

/-- An address the predicate lets through has the same standing among the
    gaps as in the registry. -/
theorem standing_gaps {known : List Block}
    {rows : List (Block × Standing)} {bytes : List UInt8}
    (h : known.any (fun block => covers block bytes) = false) :
    standing .reachable (rows.filter (fun row => !known.contains row.1))
      bytes = standing .reachable rows bytes := by
  refine standing_filter ?_
  intro row _ hdropped
  have hmem : row.1 ∈ known := by simpa using hdropped
  exact Bool.eq_false_iff.mpr (List.any_eq_false.mp h row.1 hmem)

/-- **SPECIAL ADDRESSES** are those the predicate rejects and those of the
    gaps. -/
theorem special_iff (ip : IP) :
    special registryV4 registryV6 ip = true ↔
      isPrivateImageIP ip = true ∨ special gapsV4 gapsV6 ip = true := by
  have hpasses : isPrivateImageIP ip = false →
      special gapsV4 gapsV6 ip = special registryV4 registryV6 ip := by
    intro h
    cases hform : ip.to4 with
    | some ip4 =>
        rw [isPrivateImageIP_v4 hform] at h
        simp only [special, hform]
        rw [gapsV4_eq, standing_gaps h]
    | none =>
        rw [isPrivateImageIP_v6 hform] at h
        simp only [special, hform]
        rw [gapsV6_eq, standing_gaps h]
  cases h : isPrivateImageIP ip with
  | true => exact iff_of_true (special_of_private h) (Or.inl rfl)
  | false =>
      rw [hpasses h]
      constructor
      · exact Or.inr
      · rintro (hfalse | h)
        · cases hfalse
        · exact h

/-! ## The fetcher -/

/-- The parts of a `url.URL` that are read. -/
structure URL where
  scheme : List Char
  hostname : List Char
  hasUser : Bool
  deriving DecidableEq

/-- A moment at which a name is resolved: the check of the URL of a request,
    or one of the dials of a request. -/
inductive Lookup where
  | check (request : Nat)
  | dial (request attempt : Nat)

/-- The answer of a server that was reached. -/
structure Response where
  statusCode : Nat
  contentLength : Int
  contentType : String
  /-- `io.ReadAll` of the body, cut off after `maxImageBytes+1` bytes. -/
  body : Option (List UInt8)

/-- How a request ends. -/
inductive Reply where
  | failed (error : String)
  | redirect (location : URL)
  | response (response : Response)

/-- What the fetcher meets: Go's parsing of URLs, addresses and media types
    and its sniffing of contents, and the network.  The resolver may answer
    differently at every moment; the transport dials as often as it likes
    for a request, not at all where it reuses a connection. -/
structure World where
  toLower : Char → Char
  byteLength : List Char → Nat
  parseURL : List Char → Option URL
  render : URL → List Char
  parseIP : List Char → Option IP
  /-- The host of the address the transport dials for a URL. -/
  dialHost : URL → Option (List Char)
  lookupIP : Lookup → List Char → Option (List IP)
  dials : Nat → Nat
  accepts : Nat → Nat → IP → Bool
  reply : Nat → Reply
  parseMediaType : String → Option String
  detectContentType : List UInt8 → String

def maxImageBytes : Nat := 5 * 2 ^ 20

def maxImageRedirects : Nat := 3

def supportedImageTypes : List (String × String) :=
  [ ("image/png", ".png"), ("image/jpeg", ".jpg"),
    ("image/webp", ".webp"), ("image/gif", ".gif") ]

variable (w : World)

def rejectPrivateImageHost (request : Nat) (hostname : List Char) :
    Except String Unit :=
  let host := trimSuffix ((trimSpace hostname).map w.toLower) ['.']
  if host = "localhost".toList ∨ ".localhost".toList <:+ host
  then .error "image URL host is not allowed"
  else match w.parseIP host with
    | some ip =>
        if isPrivateImageIP ip then .error "image URL host is not allowed"
        else .ok ()
    | none =>
        match w.lookupIP (.check request) host with
        | none | some [] => .error "image URL host could not be resolved"
        | some ips =>
            if ips.any isPrivateImageIP
            then .error "image URL host is not allowed"
            else .ok ()

def validateRemoteImageURL (request : Nat) (rawURL : List Char) :
    Except String URL :=
  match w.parseURL (trimSpace rawURL) with
  | none => .error "image URL must use HTTPS without credentials"
  | some u =>
      if u.scheme ≠ "https".toList ∨ u.hostname = [] ∨ u.hasUser = true ∨
        2048 < w.byteLength rawURL
      then .error "image URL must use HTTPS without credentials"
      else match rejectPrivateImageHost w request u.hostname with
        | .error e => .error e
        | .ok () => .ok u

/-- An address the dialer was given, and whether it accepted. -/
structure Contact where
  ip : IP
  opened : Bool
  deriving DecidableEq

/-- The loop of `secureImageDialContext` over the answers. -/
def dialLoop (accepts : IP → Bool) :
    Option String → List IP → List Contact × Except String IP
  | lastErr, [] =>
      ([], .error (lastErr.getD "image URL host could not be reached"))
  | _, ip :: ips =>
      if isPrivateImageIP ip
      then dialLoop accepts (some "image URL host is not allowed") ips
      else if accepts ip then ([⟨ip, true⟩], .ok ip)
      else
        let rest := dialLoop accepts (some "dial error") ips
        (⟨ip, false⟩ :: rest.1, rest.2)

/-- `secureImageDialContext`, for one dial of a request. -/
def secureImageDialContext (request attempt : Nat) (u : URL) :
    List Contact × Except String IP :=
  match w.dialHost u with
  | none => ([], .error "address error")
  | some host =>
      match w.lookupIP (.dial request attempt) host with
      | none | some [] =>
          ([], .error "image URL host could not be resolved")
      | some ips => dialLoop (w.accepts request attempt) none ips

/-- The dials of a request. -/
def dialed (request : Nat) (u : URL) : List Contact :=
  (List.range (w.dials request)).flatMap
    fun attempt => (secureImageDialContext w request attempt u).1

/-- The loop of `client.Do`, at the request of the given number: its dials,
    and what `CheckRedirect` lets it do next. -/
def clientDo (request : Nat) (u : URL) :
    List Contact × Except String Response :=
  match w.reply request with
  | .failed e => (dialed w request u, .error e)
  | .response r => (dialed w request u, .ok r)
  | .redirect location =>
      if maxImageRedirects ≤ request + 1
      then (dialed w request u, .error "too many image redirects")
      else match validateRemoteImageURL w (request + 1)
          (w.render location) with
        | .error e => (dialed w request u, .error e)
        | .ok _ =>
            let rest := clientDo (request + 1) location
            (dialed w request u ++ rest.1, rest.2)
termination_by maxImageRedirects - request

def readImageBytes (body : Option (List UInt8)) :
    Except String (List UInt8) :=
  match body with
  | none => .error "image exceeds the maximum size"
  | some data =>
      if data.length = 0 ∨ maxImageBytes < data.length
      then .error "image exceeds the maximum size"
      else .ok data

def responseImageType (raw : String) : Except String String :=
  match w.parseMediaType raw with
  | none => .error "remote response has an invalid content type"
  | some contentType =>
      if (supportedImageTypes.lookup contentType).isSome then .ok contentType
      else .error "remote response is not a supported image"

def detectedImageType (data : List UInt8) : Except String String :=
  let contentType := w.detectContentType data
  if (supportedImageTypes.lookup contentType).isSome then .ok contentType
  else .error "unsupported image type"

/-- What is asked of the response. -/
def readResponse (r : Response) : Except String (List UInt8 × String) :=
  if r.statusCode < 200 ∨ 300 ≤ r.statusCode
  then .error ("remote image returned HTTP " ++ toString r.statusCode)
  else if (maxImageBytes : Int) < r.contentLength
  then .error "remote image exceeds the maximum size"
  else do
    let data ← readImageBytes r.body
    let headerType ← responseImageType w r.contentType
    match detectedImageType w data with
    | .error _ => .error "remote response is not a supported image"
    | .ok detectedType =>
        if detectedType ≠ headerType
        then .error "remote response is not a supported image"
        else .ok (data, detectedType)

/-- `fetchRemoteImage`: every address it has the dialer contact, and what it
    returns.  The request is made from the text of the URL. -/
def fetchRemoteImage (rawURL : List Char) :
    List Contact × Except String (List UInt8 × String) :=
  match validateRemoteImageURL w 0 rawURL with
  | .error e => ([], .error e)
  | .ok u =>
      match w.parseURL (w.render u) with
      | none => ([], .error "parse error")
      | some v =>
          let done := clientDo w 0 v
          (done.1, done.2.bind (readResponse w))

/-! ## What is dialled -/

/-- An answer comes to be dialled: the predicate lets it through, and none
    before it was dialled and accepted. -/
def Turn (accepts : IP → Bool) (ips : List IP) (ip : IP) : Prop :=
  ∃ before after, ips = before ++ ip :: after ∧
    isPrivateImageIP ip = false ∧
    ∀ b ∈ before, isPrivateImageIP b = false → accepts b = false

omit w in
theorem turn_cons {accepts : IP → Bool} {a ip : IP} {ips : List IP} :
    Turn accepts (a :: ips) ip ↔
      (a = ip ∧ isPrivateImageIP ip = false) ∨
      ((isPrivateImageIP a = false → accepts a = false) ∧
        Turn accepts ips ip) := by
  constructor
  · rintro ⟨before, after, heq, hpasses, hbefore⟩
    cases before with
    | nil =>
        cases heq
        exact Or.inl ⟨rfl, hpasses⟩
    | cons b before =>
        cases heq
        exact Or.inr ⟨hbefore a (List.mem_cons_self ..), before, after, rfl,
          hpasses, fun x hx => hbefore x (List.mem_cons_of_mem _ hx)⟩
  · rintro (⟨rfl, hpasses⟩ | ⟨ha, before, after, rfl, hpasses, hbefore⟩)
    · exact ⟨[], ips, rfl, hpasses, fun b hb => nomatch hb⟩
    · refine ⟨a :: before, after, rfl, hpasses, ?_⟩
      intro b hb
      rcases List.mem_cons.mp hb with rfl | hb
      · exact ha
      · exact hbefore b hb

omit w in
/-- The contacts of a dial are the answers that come to be dialled. -/
theorem mem_dialLoop {accepts : IP → Bool} {c : Contact} {ips : List IP}
    {lastErr : Option String} :
    c ∈ (dialLoop accepts lastErr ips).1 ↔
      Turn accepts ips c.ip ∧ c.opened = accepts c.ip := by
  induction ips generalizing lastErr with
  | nil =>
      refine iff_of_false (fun h => nomatch h) ?_
      rintro ⟨⟨before, after, heq, -⟩, -⟩
      cases before <;> cases heq
  | cons a ips ih =>
      rw [turn_cons]
      unfold dialLoop
      split
      case isTrue hprivate =>
          rw [ih]
          refine and_congr_left' ?_
          constructor
          · intro h
            refine Or.inr ⟨?_, h⟩
            intro hpasses
            rw [hprivate] at hpasses
            cases hpasses
          · rintro (⟨rfl, hpasses⟩ | ⟨-, h⟩)
            · rw [hprivate] at hpasses
              cases hpasses
            · exact h
      case isFalse hpasses =>
          have hpasses := Bool.eq_false_iff.mpr hpasses
          split
          case isTrue haccepts =>
              rw [List.mem_singleton]
              constructor
              · rintro rfl
                exact ⟨Or.inl ⟨rfl, hpasses⟩, haccepts.symm⟩
              · rintro ⟨⟨rfl, -⟩ | ⟨hno, -⟩, hopened⟩
                · rw [haccepts] at hopened
                  cases c
                  cases hopened
                  rfl
                · rw [hno hpasses] at haccepts
                  cases haccepts
          case isFalse hrefuses =>
              have hrefuses := Bool.eq_false_iff.mpr hrefuses
              rw [List.mem_cons, ih]
              constructor
              · rintro (rfl | ⟨h, hopened⟩)
                · exact ⟨Or.inl ⟨rfl, hpasses⟩, hrefuses.symm⟩
                · exact ⟨Or.inr ⟨fun _ => hrefuses, h⟩, hopened⟩
              · rintro ⟨⟨rfl, -⟩ | ⟨-, h⟩, hopened⟩
                · rw [hrefuses] at hopened
                  cases c
                  cases hopened
                  exact Or.inl rfl
                · exact Or.inr ⟨h, hopened⟩

/-- The answers the resolver gives one dial of a request. -/
def Answers (request attempt : Nat) (u : URL) (ips : List IP) : Prop :=
  attempt < w.dials request ∧ ∃ host, w.dialHost u = some host ∧
    w.lookupIP (.dial request attempt) host = some ips

/-- The contacts of a request. -/
theorem mem_dialed {request : Nat} {u : URL} {c : Contact} :
    c ∈ dialed w request u ↔ ∃ attempt ips,
      Answers w request attempt u ips ∧
      Turn (w.accepts request attempt) ips c.ip ∧
      c.opened = w.accepts request attempt c.ip := by
  rw [dialed, List.mem_flatMap]
  refine exists_congr (fun attempt => ?_)
  rw [List.mem_range]
  constructor
  · rintro ⟨hattempt, hc⟩
    unfold secureImageDialContext at hc
    split at hc
    case h_1 => cases hc
    case h_2 host hhost =>
        split at hc
        case h_1 => cases hc
        case h_2 => cases hc
        case h_3 ips _ hips =>
            exact ⟨ips, ⟨hattempt, host, hhost, hips⟩,
              mem_dialLoop.mp hc⟩
  · rintro ⟨ips, ⟨hattempt, host, hhost, hips⟩, hturn⟩
    refine ⟨hattempt, ?_⟩
    cases ips with
    | nil =>
        obtain ⟨⟨before, after, heq, -⟩, -⟩ := hturn
        cases before <;> cases heq
    | cons a ips =>
        simp only [secureImageDialContext, hhost, hips]
        exact mem_dialLoop.mpr hturn

/-! ## The requests that are made -/

/-- One redirect that is followed: there are not too many, and the check lets
    its URL through. -/
def Redirects (p q : Nat × URL) : Prop :=
  w.reply p.1 = .redirect q.2 ∧ p.1 + 1 < maxImageRedirects ∧
    q.1 = p.1 + 1 ∧
    ∃ u, validateRemoteImageURL w q.1 (w.render q.2) = .ok u

/-- A request that is made, by its number and its URL. -/
def Requested (rawURL : List Char) (request : Nat) (u : URL) : Prop :=
  ∃ checked first, validateRemoteImageURL w 0 rawURL = .ok checked ∧
    w.parseURL (w.render checked) = some first ∧
    Relation.ReflTransGen (Redirects w) (0, first) (request, u)

/-- The client's loop makes its own request and those a redirect leads to. -/
theorem mem_clientDo {c : Contact} (request : Nat) (u : URL) :
    c ∈ (clientDo w request u).1 ↔
      ∃ later v, Relation.ReflTransGen (Redirects w) (request, u)
        (later, v) ∧ c ∈ dialed w later v := by
  have hstay : ∀ {k : Nat} {x : URL},
      (∀ q, ¬ Redirects w (k, x) q) → (c ∈ dialed w k x ↔
        ∃ later v, Relation.ReflTransGen (Redirects w) (k, x) (later, v) ∧
          c ∈ dialed w later v) := by
    intro k x hno
    constructor
    · intro h
      exact ⟨k, x, .refl, h⟩
    · rintro ⟨later, v, hpath, h⟩
      rcases Relation.ReflTransGen.cases_head hpath with heq | ⟨q, hq, -⟩
      · cases heq
        exact h
      · exact absurd hq (hno q)
  induction request, u using clientDo.induct w with
  | case1 request u e hreply =>
      rw [clientDo, hreply]
      refine hstay ?_
      rintro q ⟨hq, -⟩
      rw [hreply] at hq
      cases hq
  | case2 request u r hreply =>
      rw [clientDo, hreply]
      refine hstay ?_
      rintro q ⟨hq, -⟩
      rw [hreply] at hq
      cases hq
  | case3 request u location hreply hmany =>
      rw [clientDo, hreply]
      simp only [if_pos hmany]
      refine hstay ?_
      rintro q ⟨-, hfew, -⟩
      omega
  | case4 request u location hreply hfew e hcheck =>
      rw [clientDo, hreply]
      simp only [if_neg hfew, hcheck]
      refine hstay ?_
      rintro ⟨k, v⟩ ⟨hq, -, rfl, x, hx⟩
      rw [hreply] at hq
      cases hq
      rw [hcheck] at hx
      cases hx
  | case5 request u location hreply hfew x hcheck ih =>
      rw [clientDo, hreply]
      simp only [if_neg hfew, hcheck, List.mem_append]
      have hstep : Redirects w (request, u) (request + 1, location) :=
        ⟨hreply, by omega, rfl, x, hcheck⟩
      constructor
      · rintro (h | h)
        · exact ⟨request, u, .refl, h⟩
        · obtain ⟨later, v, hpath, hv⟩ := ih.mp h
          exact ⟨later, v, .head hstep hpath, hv⟩
      · rintro ⟨later, v, hpath, hv⟩
        rcases Relation.ReflTransGen.cases_head hpath with
          heq | ⟨⟨k, y⟩, hq, hrest⟩
        · cases heq
          exact Or.inl hv
        · obtain ⟨hy, -, hk, -⟩ := hq
          rw [hreply] at hy
          cases hy
          cases hk
          exact Or.inr (ih.mpr ⟨later, v, hrest, hv⟩)

/-- The contacts of a fetch are those of the requests that are made. -/
theorem mem_contacts {rawURL : List Char} {c : Contact} :
    c ∈ (fetchRemoteImage w rawURL).1 ↔
      ∃ request u, Requested w rawURL request u ∧ c ∈ dialed w request u := by
  constructor
  · intro h
    unfold fetchRemoteImage at h
    split at h
    case h_1 => cases h
    case h_2 checked hcheck =>
        split at h
        case h_1 => cases h
        case h_2 first hfirst =>
            obtain ⟨request, u, hpath, hc⟩ := (mem_clientDo w 0 first).mp h
            exact ⟨request, u, ⟨checked, first, hcheck, hfirst, hpath⟩, hc⟩
  · rintro ⟨request, u, ⟨checked, first, hcheck, hfirst, hpath⟩, hc⟩
    simp only [fetchRemoteImage, hcheck, hfirst]
    exact (mem_clientDo w 0 first).mpr ⟨request, u, hpath, hc⟩

/-! ## The law -/

/-- What counts as reaching a host: that it is dialled, or that it accepts. -/
inductive Reach where
  | dialled
  | opened
  deriving DecidableEq

/-- The contact counts. -/
def Reach.Counts : Reach → Bool → Prop
  | .dialled, _ => True
  | .opened, accepted => accepted = true

/-- In every dial of every request that is made, an answer in one of the gaps
    comes after an answer that is let through and accepts. -/
def Guarded (rawURL : List Char) (reach : Reach) : Prop :=
  ∀ request u, Requested w rawURL request u →
    ∀ attempt ips, Answers w request attempt u ips →
      ∀ before ip after, ips = before ++ ip :: after →
        special gapsV4 gapsV6 ip = true → isPrivateImageIP ip = false →
        reach.Counts (w.accepts request attempt ip) →
          ∃ b ∈ before, isPrivateImageIP b = false ∧
            w.accepts request attempt b = true

/-- **THE LAW OF CONTACTS**: for every URL, every chain of redirects and every
    sequence of answers of the resolver, the hosts a fetch reaches are all
    public just when every answer in a gap of the predicate is preceded by
    one that accepted. -/
theorem image_contacts_law (rawURL : List Char) (reach : Reach) :
    (∀ c ∈ (fetchRemoteImage w rawURL).1, reach.Counts c.opened →
      Public c.ip) ↔ Guarded w rawURL reach := by
  constructor
  · intro h request u hreq attempt ips hans before ip after hips hgap
      hpasses hcounts
    by_contra hnone
    have hturn : Turn (w.accepts request attempt) ips ip := by
      refine ⟨before, after, hips, hpasses, ?_⟩
      intro b hb hb'
      rw [Bool.eq_false_iff]
      intro haccepts
      exact hnone ⟨b, hb, hb', haccepts⟩
    have hmem : (⟨ip, w.accepts request attempt ip⟩ : Contact) ∈
        (fetchRemoteImage w rawURL).1 :=
      (mem_contacts w).mpr ⟨request, u, hreq,
        (mem_dialed w).mpr ⟨attempt, ips, hans, hturn, rfl⟩⟩
    have hpublic : special registryV4 registryV6 ip = false :=
      h _ hmem hcounts
    rw [(special_iff ip).mpr (Or.inr hgap)] at hpublic
    cases hpublic
  · intro h c hc hcounts
    obtain ⟨request, u, hreq, hdialed⟩ := (mem_contacts w).mp hc
    obtain ⟨attempt, ips, hans, ⟨before, after, hips, hpasses, hbefore⟩,
      hopened⟩ := (mem_dialed w).mp hdialed
    rw [hopened] at hcounts
    show special registryV4 registryV6 c.ip = false
    rw [Bool.eq_false_iff]
    intro hspecial
    rcases (special_iff c.ip).mp hspecial with hprivate | hgap
    · rw [hpasses] at hprivate
      cases hprivate
    · obtain ⟨b, hb, hb', haccepts⟩ := h request u hreq attempt ips hans
        before c.ip after hips hgap hpasses hcounts
      rw [hbefore b hb hb'] at haccepts
      cases haccepts

/-! ## The shared address space -/

/-- An address of four bytes. -/
def v4 (a b c d : UInt8) : IP := ⟨[a, b, c, d], Or.inl rfl⟩

/-- The URL of an image. -/
def imageURL : List Char := "https://images.test/a.png".toList

/-- Its host resolves to 100.64.0.1, which accepts and answers with an empty
    page. -/
def sharedWorld : World where
  toLower := Char.toLower
  byteLength := List.length
  parseURL := fun text =>
    if text = imageURL then
      some { scheme := "https".toList, hostname := "images.test".toList,
             hasUser := false }
    else none
  render := fun _ => imageURL
  parseIP := fun _ => none
  dialHost := fun u => some u.hostname
  lookupIP := fun _ _ => some [v4 100 64 0 1]
  dials := fun _ => 1
  accepts := fun _ _ _ => true
  reply := fun _ => .response
    { statusCode := 200, contentLength := 0, contentType := "text/html"
      body := some [] }
  parseMediaType := some
  detectContentType := fun _ => "text/plain; charset=utf-8"

/-- **THE MISSED RANGE**: the fetch connects to 100.64.0.1, in the shared
    address space.  The same predicate lets through the NAT64 address of
    127.0.0.1. -/
theorem shared_address_contacted :
    (fetchRemoteImage sharedWorld imageURL).1 = [⟨v4 100 64 0 1, true⟩] ∧
    ¬ Public (v4 100 64 0 1) ∧
    isPrivateImageIP ⟨[0, 0x64, 0xff, 0x9b, 0, 0, 0, 0, 0, 0, 0, 0,
      127, 0, 0, 1], Or.inr rfl⟩ = false ∧
    ¬ Public ⟨[0, 0x64, 0xff, 0x9b, 0, 0, 0, 0, 0, 0, 0, 0,
      127, 0, 0, 1], Or.inr rfl⟩ := by
  refine ⟨?_, by decide, by decide, by decide⟩
  have hcheck : validateRemoteImageURL sharedWorld 0 imageURL = .ok
      { scheme := "https".toList, hostname := "images.test".toList,
        hasUser := false } := by
    decide
  have hparse : sharedWorld.parseURL (sharedWorld.render
      { scheme := "https".toList, hostname := "images.test".toList,
        hasUser := false }) = some
      { scheme := "https".toList, hostname := "images.test".toList,
        hasUser := false } := by
    decide
  simp only [fetchRemoteImage, hcheck, hparse]
  rw [clientDo]
  rfl

end RemoteImage
