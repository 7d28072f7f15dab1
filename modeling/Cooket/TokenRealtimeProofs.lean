import Cooket.MarketLogProofs
import Mathlib.Data.List.DropRight

/-! # The buffer of a token page

    The listener of `useTokenRealtimeTrades`, in
    `apps/web/src/lib/token-realtime.ts`: a message is parsed, and an event of
    the token updates the buffer of the page.  A removal takes its identity
    out; another event is appended unless its block is retired or its identity
    is there already; and the buffer keeps the last 256.

    An event that is removed may lack a timestamp, no other may. -/

namespace TokenRealtime

open Contract MarketLog

/-! ## Parsing -/

/-- `Number.MAX_SAFE_INTEGER`. -/
def maxSafeInteger : Nat := 2 ^ 53 - 1

def DEDUPE_CAPACITY : Nat := 256

/-- The identity is made of the event's own fields, and the decimals are those
    of one of the two markets. -/
def wellFormed (event : Event) : Bool :=
  decide (event.identity =
    ⟨ChainID, event.transactionHash, event.logIndex⟩) &&
  decide (event.usdcDecimals = 6 ∨ event.usdcDecimals = 18)

/-- The checks of `parseRealtimeTrade`. -/
def parses (tokenAddress : Address) (event : Event) : Bool :=
  decide (event.token = tokenAddress) && wellFormed event &&
  decide (event.blockNumber ≤ maxSafeInteger) &&
  decide (event.logIndex ≤ maxSafeInteger) &&
  match event.blockTimestamp with
    | none => event.removed
    | some timestamp => decide (timestamp ≤ maxSafeInteger)

/-- **`parseRealtimeTrade`**. -/
def parseRealtimeTrade (tokenAddress : Address) (event : Event) :
    Option Event :=
  if parses tokenAddress event then some event else none

/-- Every event of the decoder is well formed. -/
theorem decode_wellFormed {usdc : Address}
    {resolve : Address → Option Registration} {entry : Log} {event : Event}
    (h : decode usdc resolve entry = .ok event) : wellFormed event = true := by
  have hn := decode_names h
  have hid : event.identity =
      ⟨ChainID, event.transactionHash, event.logIndex⟩ := by
    rw [hn.identity, hn.transactionHash, hn.logIndex]
    rfl
  have hdecimals : event.usdcDecimals = 6 ∨ event.usdcDecimals = 18 := by
    unfold decode at h
    split at h
    · cases h
    · next registration _ =>
      split at h
      · obtain ⟨_, _, _, rfl⟩ | ⟨_, _, _, rfl⟩ := decodeCurve_ok h
        · exact Or.inr rfl
        · exact Or.inr rfl
      · obtain ⟨_, _, _, _, rfl⟩ := decodeSwap_ok h
        exact Or.inl rfl
  simp only [wellFormed, Bool.and_eq_true, decide_eq_true_eq]
  exact ⟨hid, hdecimals⟩

section Parse

variable {tokenAddress : Address} {event parsed : Event}

theorem parses_token (h : parses tokenAddress event = true) :
    event.token = tokenAddress := by
  simp only [parses, Bool.and_eq_true, decide_eq_true_eq] at h
  exact h.1.1.1.1

theorem parseRealtimeTrade_eq_some
    (h : parseRealtimeTrade tokenAddress event = some parsed) :
    parsed = event ∧ event.token = tokenAddress := by
  unfold parseRealtimeTrade at h
  split_ifs at h with hvalid
  exact ⟨(Option.some.inj h).symm, parses_token hvalid⟩

end Parse

/-! ## The buffer -/

/-- The block is retired. -/
def retired (watermark : Option Nat) (block : Nat) : Bool :=
  match watermark with
  | none => false
  | some w => decide (block ≤ w)

theorem retired_eq_false {watermark : Option Nat} {block : Nat} :
    retired watermark block = false ↔
      ∀ w, watermark = some w → w < block := by
  cases watermark with
  | none => exact iff_of_true rfl (fun _ h => nomatch h)
  | some w =>
      show decide (block ≤ w) = false ↔ _
      rw [decide_eq_false_iff_not, Nat.not_le]
      exact ⟨fun h _ heq => Option.some.inj heq ▸ h, fun h => h w rfl⟩

/-- The state update of `receive`. -/
def received (watermark : Option Nat) (current : List Event) (event : Event) :
    List Event :=
  let exist := current.any fun item => item.identity = event.identity
  if event.removed then
    if exist then current.filter fun item => item.identity ≠ event.identity
    else current
  else if retired watermark event.blockNumber then current
  else if exist then current
  else (current ++ [event]).rtake DEDUPE_CAPACITY

/-- **`receive`**. -/
def receive (tokenAddress : Address) (watermark : Option Nat)
    (current : List Event) (event : Event) : List Event :=
  match parseRealtimeTrade tokenAddress event with
  | none => current
  | some event => received watermark current event

section Received

variable {tokenAddress : Address} {watermark : Option Nat}
  {current : List Event} {event : Event}

/-- What does not parse changes nothing. -/
theorem receive_refused (hp : parses tokenAddress event = false) :
    receive tokenAddress watermark current event = current := by
  have hnone : parseRealtimeTrade tokenAddress event = none := by
    simp [parseRealtimeTrade, hp]
  rw [receive, hnone]

theorem receive_parsed (hp : parses tokenAddress event = true) :
    receive tokenAddress watermark current event =
      received watermark current event := by
  have hsome : parseRealtimeTrade tokenAddress event = some event := by
    simp [parseRealtimeTrade, hp]
  rw [receive, hsome]

/-- A removal takes the identity out. -/
theorem received_removed (hr : event.removed = true) :
    received watermark current event
      = current.filter (fun item => item.identity ≠ event.identity) := by
  simp only [received, hr, if_true]
  split_ifs with hexist
  · rfl
  · refine (List.filter_eq_self.mpr ?_).symm
    intro item hitem
    refine decide_eq_true ?_
    intro heq
    exact hexist (List.any_eq_true.mpr ⟨item, hitem, decide_eq_true heq⟩)

/-- An event of a retired block changes nothing. -/
theorem received_retired (hr : event.removed = false)
    (hw : retired watermark event.blockNumber = true) :
    received watermark current event = current := by
  simp [received, hr, hw]

/-- An event the page has changes nothing. -/
theorem received_known (hr : event.removed = false)
    (h : ∃ item ∈ current, item.identity = event.identity) :
    received watermark current event = current := by
  obtain ⟨item, hitem, heq⟩ := h
  have hany : current.any (fun item => item.identity = event.identity)
      = true :=
    List.any_eq_true.mpr ⟨item, hitem, decide_eq_true heq⟩
  simp [received, hr, hany]

/-- A new event is appended, and the buffer is cut to its capacity. -/
theorem received_new (hr : event.removed = false)
    (hw : retired watermark event.blockNumber = false)
    (h : ∀ item ∈ current, item.identity ≠ event.identity) :
    received watermark current event
      = (current ++ [event]).rtake DEDUPE_CAPACITY := by
  have hany : current.any (fun item => item.identity = event.identity)
      = false := by
    rw [List.any_eq_false]
    intro item hitem heq
    exact h item hitem (of_decide_eq_true heq)
  simp [received, hr, hw, hany]

/-- A buffer within its capacity is not cut. -/
theorem rtake_of_length_le {l : List Event} {n : Nat} (h : l.length ≤ n) :
    l.rtake n = l := by
  rw [List.rtake, Nat.sub_eq_zero_of_le h, List.drop_zero]

/-- While there is room, the new event joins the others. -/
theorem received_room (hr : event.removed = false)
    (hw : retired watermark event.blockNumber = false)
    (h : ∀ item ∈ current, item.identity ≠ event.identity)
    (hroom : current.length < DEDUPE_CAPACITY) :
    received watermark current event = current ++ [event] := by
  have hlen : (current ++ [event]).length ≤ DEDUPE_CAPACITY := by
    rw [List.length_append, List.length_singleton]
    exact hroom
  rw [received_new hr hw h, rtake_of_length_le hlen]

/-- A full buffer takes the new event in and its oldest one out. -/
theorem received_full {oldest : Event} {rest : List Event}
    (hr : event.removed = false)
    (hw : retired watermark event.blockNumber = false)
    (h : ∀ item ∈ oldest :: rest, item.identity ≠ event.identity)
    (hfull : DEDUPE_CAPACITY ≤ (oldest :: rest).length) :
    received watermark (oldest :: rest) event
      = (rest ++ [event]).rtake DEDUPE_CAPACITY := by
  have hcut : (oldest :: (rest ++ [event])).length - DEDUPE_CAPACITY
      = (rest ++ [event]).length - DEDUPE_CAPACITY + 1 := by
    simp only [List.length_cons, List.length_append, List.length_nil]
      at hfull ⊢
    omega
  rw [received_new hr hw h, List.cons_append, List.rtake, hcut,
    List.drop_succ_cons, List.rtake]

/-- Nothing comes into the buffer but the event. -/
theorem mem_of_mem_received {item : Event}
    (h : item ∈ received watermark current event) :
    item ∈ current ∨ item = event := by
  revert h
  unfold received
  dsimp only
  split_ifs
  · exact fun h => Or.inl (List.mem_of_mem_filter h)
  · exact Or.inl
  · exact Or.inl
  · exact Or.inl
  · intro h
    simpa using List.mem_of_mem_drop h

end Received

end TokenRealtime
