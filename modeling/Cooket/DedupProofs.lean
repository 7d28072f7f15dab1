import Cooket.BoundedMemoryProofs
import Cooket.JsonTextProofs
import Cooket.NumeralProofs
import Cooket.RealtimeServiceProofs

/-! # The two bounded memories of the realtime service

    `market.Deduper` remembers which deliveries it has accepted, and
    `blockTimestampCache` which block times it has read.  Both are a map and a
    slice that is SHIFTED by one place when the memory is full.

    The deduplicator's keys are texts made of a log's identity and of whether
    it was removed; no two deliveries share a text.  The cache is asked from
    several goroutines at once: callers that miss the same hash share ONE
    lookup, and each of them gets what that lookup returns. -/

namespace Dedup

open BoundedMemory Numeral
open JsonText (decimal hexDigit hexValue_hexDigit toDigits_isDigit)

/-! ## Keys -/

/-- `common.Hash`. -/
abbrev Hash := Fin (2 ^ 256)

abbrev Text := List Char

/-- `Hash.Hex`. -/
def hex (h : Hash) : Text := '0' :: 'x' :: (digits 16 64 h).map hexDigit

/-- `market.EventID`. -/
structure EventID where
  chainID : Int
  transactionHash : Hash
  logIndex : Nat
  deriving DecidableEq, Repr

/-- `EventID.String`. -/
def EventID.string (id : EventID) : Text :=
  decimal id.chainID ++ ':' :: (hex id.transactionHash ++ ':' ::
    decimal id.logIndex)

/-- A log that is delivered: its identity, and whether it was removed. -/
abbrev Delivery := EventID × Bool

/-- The key of a delivery. -/
def key (d : Delivery) : Text :=
  d.1.string ++ if d.2 then ":removed".toList else ":canonical".toList

/-! ## The deduplicator -/

/-- `market.Deduper`: a map to `struct{}` and a slice. -/
abbrev Deduper := Memory Text Unit

/-- `NewDeduper`. -/
def NewDeduper (capacity : Int) : Deduper :=
  empty (if capacity < 1 then 1 else capacity).toNat

section Slices

variable {α β : Type} [DecidableEq α]

/-- `copy(order, order[1:])`: every element moves down one place, and the last
    one stays where it is as well. -/
def copyDown (order : List α) : List α :=
  order.tail ++ order.drop (order.length - 1)

/-- `delete(values, order[0])`.  A full memory has a first element. -/
def deleteFirst (values : α → Option β) (order : List α) : α → Option β :=
  match order.head? with
  | some oldest => Function.update values oldest none
  | none => values

end Slices

/-- **`Deduper.Accept`**. -/
def Accept (d : Deduper) (delivery : Delivery) : Bool × Deduper :=
  let key := key delivery
  match d.values key with
  | some _ => (false, d)
  | none =>
      if d.order.length = d.capacity then
        (true,
          { d with
            values := Function.update (deleteFirst d.values d.order) key
              (some ())
            order := (copyDown d.order).set (d.order.length - 1) key })
      else
        (true,
          { d with
            values := Function.update d.values key (some ())
            order := d.order ++ [key] })

/-- A delivery offered, and the list of those accepted so far. -/
def offer (s : Deduper × List Delivery) (delivery : Delivery) :
    Deduper × List Delivery :=
  match Accept s.1 delivery with
  | (true, d) => (d, s.2 ++ [delivery])
  | (false, d) => (d, s.2)

/-- A run of deliveries. -/
def offerAll (capacity : Int) (deliveries : List Delivery) :
    Deduper × List Delivery :=
  deliveries.foldl offer (NewDeduper capacity, [])

/-! ## The cache -/

/-- A header, as far as it is read. -/
structure Header where
  hash : Hash
  time : Nat
  deriving DecidableEq, Repr

/-- `blockTimestampCache`, without the lookups under way. -/
abbrev BlockTimestampCache := Memory Hash Nat

/-- `store`. -/
def store (c : BlockTimestampCache) (hash : Hash) (timestamp : Nat) :
    BlockTimestampCache :=
  match c.values hash with
  | some _ => c
  | none =>
      let c' :=
        if c.order.length = c.capacity then
          { c with
            values := deleteFirst c.values c.order
            order := (copyDown c.order).take (c.order.length - 1) }
        else c
      { c' with
        values := Function.update c'.values hash (some timestamp)
        order := c'.order ++ [hash] }

/-- A lookup under way: the hash its leader asked for, and everybody who waits
    for it. -/
structure Flight where
  hash : Hash
  waiting : List Hash

/-- The cache with its lookups, the headers that were fetched, and what `get`
    has returned to whom. -/
structure World where
  cache : BlockTimestampCache
  lookups : Text → Option Flight
  fetched : List Header
  returned : List (Hash × Nat)

/-- One step of some goroutine inside `get`: its first look into the cache; its
    joining the lookup of the hash, at any time after that; the second look of a
    lookup's leader; and the answer of the leader's fetch. -/
inductive Act where
  | check (hash : Hash)
  | join (hash : Hash)
  | look (key : Text)
  | land (key : Text) (header : Option Header)

/-- A caller joins a lookup, or starts one. -/
def board (f : Option Flight) (hash : Hash) : Flight :=
  match f with
  | some f => { f with waiting := f.waiting ++ [hash] }
  | none => ⟨hash, [hash]⟩

/-- A lookup is over: everybody who waits gets its result. -/
def World.finish (w : World) (key : Text) (f : Flight)
    (result : Option Nat) : World :=
  { w with
    lookups := Function.update w.lookups key none
    returned := w.returned ++
      match result with
      | some timestamp => f.waiting.map fun h => (h, timestamp)
      | none => [] }

/-- **`get`**, step by step. -/
def step (w : World) : Act → World
  | .check hash =>
      if hash = 0 then w
      else
        match w.cache.values hash with
        | some timestamp =>
            { w with returned := w.returned ++ [(hash, timestamp)] }
        | none => w
  | .join hash =>
      if hash = 0 then w
      else
        { w with
          lookups := Function.update w.lookups (hex hash)
            (some (board (w.lookups (hex hash)) hash)) }
  | .look key =>
      match w.lookups key with
      | none => w
      | some f =>
          match w.cache.values f.hash with
          | some timestamp => w.finish key f (some timestamp)
          | none => w
  | .land key header =>
      match w.lookups key with
      | none => w
      | some f =>
          match header with
          | none => w.finish key f none
          | some header =>
              let w := { w with fetched := w.fetched ++ [header] }
              if header.hash ≠ f.hash then w.finish key f none
              else
                { w with cache := store w.cache f.hash header.time }.finish key f
                  (some header.time)

/-- `newBlockTimestampCache`. -/
def newBlockTimestampCache (capacity : Nat) : World :=
  ⟨empty capacity, fun _ => none, [], []⟩

def run (capacity : Nat) (acts : List Act) : World :=
  acts.foldl step (newBlockTimestampCache capacity)

/-! ## No two deliveries share a key -/

/-- Before the first colon and after it. -/
theorem split_colon {xs xs' ys ys' : Text} (hx : ':' ∉ xs) (hx' : ':' ∉ xs')
    (h : xs ++ ':' :: ys = xs' ++ ':' :: ys') : xs = xs' ∧ ys = ys' := by
  induction xs generalizing xs' with
  | nil =>
      cases xs' with
      | nil => exact ⟨rfl, (List.cons.inj h).2⟩
      | cons c rest =>
          rw [← (List.cons.inj h).1] at hx'
          exact absurd List.mem_cons_self hx'
  | cons c rest ih =>
      cases xs' with
      | nil =>
          rw [(List.cons.inj h).1] at hx
          exact absurd List.mem_cons_self hx
      | cons c' rest' =>
          obtain ⟨hc, hrest⟩ := List.cons.inj h
          obtain ⟨hxs, hys⟩ := ih
            (fun hmem => hx (List.mem_cons_of_mem _ hmem))
            (fun hmem => hx' (List.mem_cons_of_mem _ hmem)) hrest
          exact ⟨by rw [hc, hxs], hys⟩

theorem colon_not_digit {n : Nat} : ':' ∉ Nat.toDigits 10 n := by
  intro h
  exact absurd (toDigits_isDigit h) (by decide)

theorem colon_not_decimal (n : Int) : ':' ∉ decimal n := by
  cases n with
  | ofNat n => exact colon_not_digit
  | negSucc n =>
      intro h
      rcases List.mem_cons.mp h with heq | hmem
      · exact absurd heq (by decide)
      · exact colon_not_digit hmem

theorem toDigits_injective {m n : Nat}
    (h : Nat.toDigits 10 m = Nat.toDigits 10 n) : m = n := by
  rw [← @Nat.ofDigitChars_ten_toDigits m, h, Nat.ofDigitChars_ten_toDigits]

theorem decimal_injective {m n : Int} (h : decimal m = decimal n) : m = n := by
  have hminus : ∀ (a b : Nat), Nat.toDigits 10 a ≠ '-' :: Nat.toDigits 10 b := by
    intro a b heq
    have hmem : '-' ∈ Nat.toDigits 10 a := by
      rw [heq]
      exact List.mem_cons_self
    exact absurd (toDigits_isDigit hmem) (by decide)
  cases m with
  | ofNat m =>
      cases n with
      | ofNat n => rw [toDigits_injective h]
      | negSucc n => exact absurd h (hminus _ _)
  | negSucc m =>
      cases n with
      | ofNat n => exact absurd h.symm (hminus _ _)
      | negSucc n =>
          have heq := toDigits_injective (List.cons.inj h).2
          rw [Nat.succ.inj heq]

theorem colon_not_hex (h : Hash) : ':' ∉ hex h := by
  intro hmem
  rcases List.mem_cons.mp hmem with heq | hmem
  · exact absurd heq (by decide)
  · rcases List.mem_cons.mp hmem with heq | hmem
    · exact absurd heq (by decide)
    · obtain ⟨d, hd, heq⟩ := List.mem_map.mp hmem
      have hlt := digits_proper (b := 16) (by decide) 64 (h : Nat) d hd
      have hvalue := hexValue_hexDigit hlt
      rw [heq] at hvalue
      exact absurd hvalue (by simp [JsonText.hexValue])

theorem hex_injective {h h' : Hash} (heq : hex h = hex h') : h = h' := by
  have hdigits : digits 16 64 (h : Nat) = digits 16 64 (h' : Nat) := by
    have hmap := (List.cons.inj (List.cons.inj heq).2).2
    have hread := congrArg (List.map fun c => JsonText.hexValue c) hmap
    rw [List.map_map, List.map_map] at hread
    have hback : ∀ x : Hash, (digits 16 64 (x : Nat)).map
        ((fun c => JsonText.hexValue c) ∘ hexDigit) =
          (digits 16 64 (x : Nat)).map some := by
      intro x
      refine List.map_congr_left ?_
      intro d hd
      exact hexValue_hexDigit (digits_proper (by decide) 64 _ d hd)
    rw [hback, hback] at hread
    exact List.map_injective_iff.mpr (fun _ _ => Option.some.inj) hread
  have hvalue := congrArg (value 16) hdigits
  rw [value_digits_of_lt (h.isLt.trans_eq (by norm_num)),
    value_digits_of_lt (h'.isLt.trans_eq (by norm_num))] at hvalue
  exact Fin.ext hvalue

/-- **ONE KEY, ONE DELIVERY**. -/
theorem key_injective {d d' : Delivery} (h : key d = key d') : d = d' := by
  obtain ⟨⟨chain, hash, index⟩, removed⟩ := d
  obtain ⟨⟨chain', hash', index'⟩, removed'⟩ := d'
  have hsuffix : ∀ r : Bool, ∃ rest,
      (if r then ":removed".toList else ":canonical".toList) = ':' :: rest ∧
        (r = true ↔ rest = "removed".toList) := by
    intro r
    cases r with
    | true => exact ⟨_, rfl, by decide⟩
    | false => exact ⟨_, rfl, by decide⟩
  obtain ⟨rest, hrest, hflag⟩ := hsuffix removed
  obtain ⟨rest', hrest', hflag'⟩ := hsuffix removed'
  simp only [key, EventID.string, hrest, hrest', List.append_assoc,
    List.cons_append] at h
  obtain ⟨hchain, h⟩ :=
    split_colon (colon_not_decimal chain) (colon_not_decimal chain') h
  obtain ⟨hhash, h⟩ := split_colon (colon_not_hex hash) (colon_not_hex hash') h
  obtain ⟨hindex, h⟩ :=
    split_colon (colon_not_decimal index) (colon_not_decimal index') h
  have hremoved : removed = removed' := by
    rw [Bool.eq_iff_iff, hflag, hflag', h]
  rw [decimal_injective hchain, hex_injective hhash,
    Int.ofNat.inj (decimal_injective hindex), hremoved]

/-! ## The slices -/

section Slices

variable {α β : Type} [DecidableEq α]

omit [DecidableEq α] in
/-- Shifting and overwriting the last place. -/
theorem copyDown_set {order : List α} (h : order ≠ []) (k : α) :
    (copyDown order).set (order.length - 1) k = order.tail ++ [k] := by
  have hlast : ∃ x, order.drop (order.length - 1) = [x] :=
    ⟨order.getLast h, List.drop_length_sub_one h⟩
  obtain ⟨x, hx⟩ := hlast
  rw [copyDown, hx, List.set_append_right _ _ (by rw [List.length_tail])]
  rw [List.length_tail, Nat.sub_self]
  rfl

omit [DecidableEq α] in
/-- Shifting and cutting the last place off. -/
theorem copyDown_take (order : List α) :
    (copyDown order).take (order.length - 1) = order.tail := by
  rw [copyDown, List.take_append_of_le_length (by rw [List.length_tail])]
  exact List.take_of_length_le (by rw [List.length_tail])

theorem deleteFirst_eq (m : Memory α β) :
    deleteFirst m.values m.order = (evict m).values := by
  rw [deleteFirst, evict]
  cases m.order with
  | nil => rfl
  | cons oldest rest => rfl

end Slices

/-- **`Accept` PUTS A NEW KEY IN**, and refuses one that is there. -/
theorem Accept_eq {d : Deduper} (hcapacity : 0 < d.capacity)
    (delivery : Delivery) :
    Accept d delivery =
      if (d.values (key delivery)).isSome then (false, d)
      else (true, put d (key delivery) ()) := by
  have hnone : ¬ (none : Option Unit).isSome = true := by decide
  rw [Accept]
  cases d.values (key delivery) with
  | some _ => rfl
  | none =>
      dsimp only
      rw [if_neg hnone, put]
      by_cases hfull : d.order.length = d.capacity
      · have hne : d.order ≠ [] := by
          intro hnil
          rw [hnil] at hfull
          exact absurd hfull.symm (Nat.ne_of_gt hcapacity)
        rw [if_pos hfull, if_pos hfull, copyDown_set hne, deleteFirst_eq, enter,
          evict_order, evict_capacity]
      · rw [if_neg hfull, if_neg hfull]
        rfl

/-- **`store` PUTS A NEW HASH IN**. -/
theorem store_eq (c : BlockTimestampCache) (hash : Hash) (timestamp : Nat) :
    store c hash timestamp =
      if (c.values hash).isSome then c else put c hash timestamp := by
  have hnone : ¬ (none : Option Nat).isSome = true := by decide
  rw [store.eq_def]
  cases c.values hash with
  | some _ => rfl
  | none =>
      dsimp only
      rw [if_neg hnone, put]
      by_cases hfull : c.order.length = c.capacity
      · rw [if_pos hfull, if_pos hfull, copyDown_take, deleteFirst_eq, enter,
          evict_order, evict_capacity]
      · rw [if_neg hfull, if_neg hfull]
        rfl

/-! ## Runs of the deduplicator -/

/-- What a run keeps: the memory is tidy, and holds the keys of the recent
    accepted deliveries. -/
structure Recalls (capacity : Nat) (s : Deduper × List Delivery) : Prop where
  size : s.1.capacity = capacity
  tidy : Tidy s.1
  order : s.1.order = recent capacity (s.2.map key)

theorem recent_map {α β : Type} (f : α → β) (n : Nat) (l : List α) :
    recent n (l.map f) = (recent n l).map f := by
  rw [recent, recent, List.length_map, List.map_drop]

/-- A key is known exactly if its delivery is among the recent ones. -/
theorem Recalls.known {capacity : Nat} {s : Deduper × List Delivery}
    (h : Recalls capacity s) (delivery : Delivery) :
    (s.1.values (key delivery)).isSome ↔ delivery ∈ recent capacity s.2 := by
  rw [h.tidy.keys, h.order, recent_map]
  constructor
  · intro hmem
    obtain ⟨d, hd, heq⟩ := List.mem_map.mp hmem
    rw [← key_injective heq]
    exact hd
  · intro hmem
    exact List.mem_map_of_mem hmem

/-- One delivery. -/
theorem Recalls.offer {capacity : Nat} (hcapacity : 0 < capacity)
    {s : Deduper × List Delivery} (h : Recalls capacity s)
    (delivery : Delivery) : Recalls capacity (offer s delivery) := by
  have hpos : 0 < s.1.capacity := by
    rw [h.size]
    exact hcapacity
  rw [Dedup.offer, Accept_eq hpos]
  by_cases hknown : (s.1.values (key delivery)).isSome
  · rw [if_pos hknown]
    exact h
  · rw [if_neg hknown]
    refine ⟨?_, ?_, ?_⟩
    · exact put_capacity _ _ |>.trans h.size
    · exact put_tidy hpos h.tidy () (fun hmem => hknown ((h.tidy.keys _).mpr hmem))
    · have horder : s.1.order = recent s.1.capacity (s.2.map key) := by
        rw [h.size]
        exact h.order
      have hrecent := put_recent hpos horder (key delivery) ()
      rw [h.size] at hrecent
      rw [hrecent, List.map_append]
      rfl

theorem recalls_run (capacity : Int) (deliveries : List Delivery) :
    Recalls (max capacity 1).toNat (offerAll capacity deliveries) := by
  have hcapacity : 0 < (max capacity 1).toNat := by omega
  have hstart : Recalls (max capacity 1).toNat (NewDeduper capacity, []) := by
    refine ⟨?_, empty_tidy _, ?_⟩
    · show (if capacity < 1 then 1 else capacity).toNat = _
      split
      · omega
      · omega
    · exact List.drop_nil.symm
  rw [offerAll]
  induction deliveries using List.reverseRecOn with
  | nil => exact hstart
  | append_singleton rest delivery ih =>
      rw [List.foldl_append]
      exact ih.offer hcapacity delivery

/-! ## Runs of the cache -/

/-- A header with a hash was fetched, and had this time. -/
def Fetched (w : World) (hash : Hash) (timestamp : Nat) : Prop :=
  ∃ header ∈ w.fetched, header.hash = hash ∧ header.time = timestamp

/-- What every step keeps. -/
structure Sound (capacity : Nat) (w : World) : Prop where
  size : w.cache.capacity = capacity
  tidy : Tidy w.cache
  values : ∀ hash timestamp, w.cache.values hash = some timestamp →
    Fetched w hash timestamp
  returned : ∀ hash timestamp, (hash, timestamp) ∈ w.returned →
    Fetched w hash timestamp
  lookups : ∀ key f, w.lookups key = some f → hex f.hash = key ∧
    ∀ h ∈ f.waiting, h = f.hash

section Steps

variable {capacity : Nat} {w : World}

theorem Fetched.mono {w' : World} (h : ∀ x ∈ w.fetched, x ∈ w'.fetched)
    {hash : Hash} {timestamp : Nat} (hf : Fetched w hash timestamp) :
    Fetched w' hash timestamp := by
  obtain ⟨header, hmem, hhash, htime⟩ := hf
  exact ⟨header, h header hmem, hhash, htime⟩

/-- A lookup that is over, with a result that a header backs. -/
theorem Sound.finish (h : Sound capacity w) {k : Text} {f : Flight}
    (hf : w.lookups k = some f) {result : Option Nat}
    (hresult : ∀ timestamp, result = some timestamp →
      Fetched w f.hash timestamp) : Sound capacity (w.finish k f result) := by
  refine ⟨h.size, h.tidy, h.values, ?_, ?_⟩
  · intro hash timestamp hmem
    rcases List.mem_append.mp hmem with hold | hnew
    · exact h.returned hash timestamp hold
    · cases result with
      | none => cases hnew
      | some t =>
          obtain ⟨caller, hcaller, heq⟩ := List.mem_map.mp hnew
          obtain ⟨rfl, rfl⟩ := Prod.mk.inj heq
          rw [(h.lookups k f hf).2 _ hcaller]
          exact hresult _ rfl
  · intro k' f' hf'
    have hf' : Function.update w.lookups k none k' = some f' := hf'
    by_cases hk : k' = k
    · rw [hk, Function.update_self] at hf'
      cases hf'
    · rw [Function.update_of_ne hk] at hf'
      exact h.lookups k' f' hf'

/-- A header that is fetched. -/
theorem Sound.fetch (h : Sound capacity w) (header : Header) :
    Sound capacity { w with fetched := w.fetched ++ [header] } := by
  have hmono : ∀ x ∈ w.fetched, x ∈ w.fetched ++ [header] :=
    fun x hx => List.mem_append_left _ hx
  exact ⟨h.size, h.tidy, fun hash t ht => (h.values hash t ht).mono hmono,
    fun hash t ht => (h.returned hash t ht).mono hmono, h.lookups⟩

/-- A time that is stored. -/
theorem Sound.store (hcapacity : 0 < capacity) (h : Sound capacity w)
    {hash : Hash} {timestamp : Nat} (hf : Fetched w hash timestamp) :
    Sound capacity { w with cache := Dedup.store w.cache hash timestamp } := by
  have hpos : 0 < w.cache.capacity := by
    rw [h.size]
    exact hcapacity
  have heq := store_eq w.cache hash timestamp
  by_cases hknown : (w.cache.values hash).isSome
  · rw [if_pos hknown] at heq
    rw [heq]
    exact h
  · rw [if_neg hknown] at heq
    rw [heq]
    refine ⟨?_, ?_, ?_, h.returned, h.lookups⟩
    · exact (put_capacity _ _).trans h.size
    · exact put_tidy hpos h.tidy _
        (fun hmem => hknown ((h.tidy.keys _).mpr hmem))
    · intro hash' t ht
      rcases put_values ht with ⟨rfl, rfl⟩ | hold
      · exact hf
      · exact h.values hash' t hold

/-- A caller that joins a lookup. -/
theorem Sound.join (h : Sound capacity w) (hash : Hash) :
    Sound capacity { w with
      lookups := Function.update w.lookups (hex hash)
        (some (board (w.lookups (hex hash)) hash)) } := by
  have hboard : hex (board (w.lookups (hex hash)) hash).hash = hex hash ∧
      ∀ caller ∈ (board (w.lookups (hex hash)) hash).waiting,
        caller = (board (w.lookups (hex hash)) hash).hash := by
    cases hold : w.lookups (hex hash) with
    | none =>
        refine ⟨rfl, ?_⟩
        intro caller hcaller
        exact List.mem_singleton.mp hcaller
    | some f =>
        obtain ⟨hhex, hwaiting⟩ := h.lookups _ _ hold
        refine ⟨hhex, ?_⟩
        intro caller hcaller
        rcases List.mem_append.mp hcaller with hmem | hmem
        · exact hwaiting caller hmem
        · rw [List.mem_singleton.mp hmem]
          exact (hex_injective hhex).symm
  refine ⟨h.size, h.tidy, h.values, h.returned, ?_⟩
  intro k f hf
  dsimp only at hf
  by_cases hk : k = hex hash
  · rw [hk, Function.update_self] at hf
    rw [hk, ← Option.some.inj hf]
    exact hboard
  · rw [Function.update_of_ne hk] at hf
    exact h.lookups k f hf

/-- **ONE STEP** keeps everything sound. -/
theorem Sound.step (hcapacity : 0 < capacity) (h : Sound capacity w) (a : Act) :
    Sound capacity (step w a) := by
  cases a with
  | check hash =>
      rw [Dedup.step.eq_def]
      dsimp only
      split
      · exact h
      · cases hvalue : w.cache.values hash with
        | none => exact h
        | some t =>
            refine ⟨h.size, h.tidy, h.values, ?_, h.lookups⟩
            intro hash' t' hmem
            rcases List.mem_append.mp hmem with hold | hnew
            · exact h.returned hash' t' hold
            · obtain ⟨rfl, rfl⟩ := Prod.mk.inj (List.mem_singleton.mp hnew)
              exact h.values _ _ hvalue
  | join hash =>
      rw [Dedup.step.eq_def]
      dsimp only
      split
      · exact h
      · exact h.join hash
  | look k =>
      rw [Dedup.step.eq_def]
      dsimp only
      cases hf : w.lookups k with
      | none => exact h
      | some f =>
          dsimp only
          cases hvalue : w.cache.values f.hash with
          | none => exact h
          | some t =>
              refine h.finish hf ?_
              intro t' ht'
              exact h.values _ _ (hvalue.trans ht')
  | land k header =>
      rw [Dedup.step.eq_def]
      dsimp only
      cases hf : w.lookups k with
      | none => exact h
      | some f =>
          dsimp only
          cases header with
          | none =>
              refine h.finish hf ?_
              intro t ht
              cases ht
          | some header =>
              have hfetched := h.fetch header
              dsimp only
              by_cases hhash : header.hash = f.hash
              · rw [if_neg (not_not.mpr hhash)]
                have hbacked : Fetched
                    { w with fetched := w.fetched ++ [header] } f.hash
                    header.time :=
                  ⟨header, List.mem_append_right _ List.mem_cons_self, hhash, rfl⟩
                refine (hfetched.store hcapacity hbacked).finish hf ?_
                intro t ht
                obtain rfl := Option.some.inj ht
                exact hbacked
              · rw [if_pos hhash]
                refine hfetched.finish hf ?_
                intro t ht
                cases ht

theorem sound_run (hcapacity : 0 < capacity) (acts : List Act) :
    Sound capacity (run capacity acts) := by
  have hstart : Sound capacity (newBlockTimestampCache capacity) := by
    refine ⟨rfl, empty_tidy _, ?_, ?_, ?_⟩
    · intro hash t h
      cases h
    · intro hash t h
      cases h
    · intro k f h
      cases h
  rw [run]
  induction acts using List.reverseRecOn with
  | nil => exact hstart
  | append_singleton rest a ih =>
      rw [List.foldl_append]
      exact ih.step hcapacity a

/-- A step changes the cache only by putting a new hash in. -/
theorem step_cache (w : World) (a : Act) :
    (step w a).cache = w.cache ∨
    ∃ hash t, w.cache.values hash = none ∧
      (step w a).cache = put w.cache hash t := by
  cases a with
  | check hash =>
      refine .inl ?_
      rw [Dedup.step.eq_def]
      dsimp only
      split
      · rfl
      · split
        · rfl
        · rfl
  | join hash =>
      refine .inl ?_
      rw [Dedup.step.eq_def]
      dsimp only
      split
      · rfl
      · rfl
  | look k =>
      refine .inl ?_
      rw [Dedup.step.eq_def]
      dsimp only
      split
      · rfl
      · split
        · rfl
        · rfl
  | land k header =>
      rw [Dedup.step.eq_def]
      dsimp only
      cases w.lookups k with
      | none => exact .inl rfl
      | some f =>
          dsimp only
          cases header with
          | none => exact .inl rfl
          | some header =>
              dsimp only
              by_cases hhash : header.hash = f.hash
              · rw [if_neg (not_not.mpr hhash)]
                have heq := store_eq w.cache f.hash header.time
                cases hvalue : w.cache.values f.hash with
                | none =>
                    rw [hvalue] at heq
                    exact .inr ⟨f.hash, header.time, hvalue, heq⟩
                | some t =>
                    rw [hvalue] at heq
                    exact .inl heq
              · rw [if_pos hhash]
                exact .inl rfl

end Steps

/-! ## The law -/

/-- **THE TWO MEMORIES**.  A delivery is accepted exactly if it is not among the
    last accepted ones, as many as the capacity (which is at least one); after
    every run the map and the slice hold the same keys, none twice and not more
    than there is room for.  The cache keeps the same invariant whatever its
    callers do at once, changes only by a new hash pushing the oldest out, and
    returns for a hash the time of a header that was fetched with that hash. -/
theorem memories_law :
    (∀ capacity deliveries delivery,
      let s := offerAll capacity deliveries
      ((Accept s.1 delivery).1 = true ↔
        delivery ∉ recent (max capacity 1).toNat s.2) ∧
      s.1.capacity = (max capacity 1).toNat ∧ Tidy s.1) ∧
    ∀ capacity, 0 < capacity → ∀ acts,
      let w := run capacity acts
      Tidy w.cache ∧ w.cache.capacity = capacity ∧
      (∀ a, (step w a).cache = w.cache ∨
        ∃ hash t, w.cache.values hash = none ∧
          (step w a).cache = put w.cache hash t) ∧
      ∀ hash t, (hash, t) ∈ w.returned →
        ∃ header ∈ w.fetched, header.hash = hash ∧ header.time = t := by
  refine ⟨?_, ?_⟩
  · intro capacity deliveries delivery
    have h := recalls_run capacity deliveries
    have hpos : 0 < (offerAll capacity deliveries).1.capacity := by
      rw [h.size]
      omega
    refine ⟨?_, h.size, h.tidy⟩
    rw [← h.known, Accept_eq hpos]
    cases ((offerAll capacity deliveries).1.values (key delivery)).isSome with
    | true => exact ⟨fun h => absurd h Bool.false_ne_true, fun h => absurd rfl h⟩
    | false => exact ⟨fun _ => Bool.false_ne_true, fun _ => rfl⟩
  · intro capacity hcapacity acts
    have h := sound_run hcapacity acts
    exact ⟨h.tidy, h.size, step_cache _, fun hash t ht => h.returned hash t ht⟩

/-! ## The memories of the handler

    `handleLog` is modelled over deliveries instead of their texts.  Its two
    memories are bounded memories as well. -/

/-- The deduplicator of the handler, as a memory of deliveries. -/
def deduperOf (d : RealtimeService.Deduper) : Memory RealtimeService.Key Unit :=
  ⟨d.capacity, fun k => if d.seen k then some () else none, d.order⟩

/-- The cache of the handler. -/
def cacheOf (c : RealtimeService.BlockTimestampCache) : Memory Nat Nat :=
  ⟨c.capacity, c.values, c.order⟩

theorem deduperOf_update (seen : RealtimeService.Key → Bool)
    (k : RealtimeService.Key) (b : Bool) :
    (fun a => if Function.update seen k b a then some () else none) =
      Function.update (fun a => if seen a then some () else none) k
        (if b then some () else none) := by
  ext a
  by_cases ha : a = k
  · rw [ha, Function.update_self, Function.update_self]
  · rw [Function.update_of_ne ha, Function.update_of_ne ha]

theorem deduperOf_Accept {d : RealtimeService.Deduper}
    (hcapacity : 0 < d.capacity) (id : MarketLog.EventID) (removed : Bool) :
    deduperOf (d.Accept id removed).2 =
      if d.seen ⟨id, removed⟩ then deduperOf d
      else put (deduperOf d) ⟨id, removed⟩ () := by
  rw [RealtimeService.Deduper.Accept]
  cases d.seen ⟨id, removed⟩ with
  | true => rfl
  | false =>
      rw [if_neg Bool.false_ne_true, if_neg Bool.false_ne_true, put]
      cases horder : d.order with
      | nil =>
          have hroom : ¬ (deduperOf d).order.length =
              (deduperOf d).capacity := by
            show ¬ d.order.length = d.capacity
            rw [horder]
            exact Nat.ne_of_lt hcapacity
          rw [if_neg hroom, deduperOf, deduperOf_update, enter]
          dsimp only [deduperOf]
          rw [horder]
          rfl
      | cons oldest rest =>
          dsimp only
          by_cases hfull : (oldest :: rest).length = d.capacity
          · have hfull' : (deduperOf d).order.length =
                (deduperOf d).capacity := by
              show d.order.length = d.capacity
              rw [horder, hfull]
            rw [if_pos hfull, if_pos hfull', deduperOf, deduperOf_update,
              deduperOf_update, enter, evict]
            dsimp only [deduperOf]
            rw [horder]
            rfl
          · have hroom : ¬ (deduperOf d).order.length =
                (deduperOf d).capacity := by
              show ¬ d.order.length = d.capacity
              rw [horder]
              exact hfull
            rw [if_neg hfull, if_neg hroom, deduperOf, deduperOf_update, enter]
            dsimp only [deduperOf]
            rw [horder]
            rfl

theorem cacheOf_store {c : RealtimeService.BlockTimestampCache}
    (hcapacity : 0 < c.capacity) (hash time : Nat) :
    cacheOf (c.store hash time) =
      if (c.values hash).isSome then cacheOf c
      else put (cacheOf c) hash time := by
  have hnone : ¬ (none : Option Nat).isSome = true := by decide
  rw [RealtimeService.BlockTimestampCache.store.eq_def]
  cases c.values hash with
  | some _ => rfl
  | none =>
      rw [if_neg hnone, put]
      cases horder : c.order with
      | nil =>
          have hroom : ¬ (cacheOf c).order.length = (cacheOf c).capacity := by
            show ¬ c.order.length = c.capacity
            rw [horder]
            exact Nat.ne_of_lt hcapacity
          rw [if_neg hroom, enter]
          dsimp only [cacheOf]
          rw [horder]
          rfl
      | cons oldest rest =>
          dsimp only
          by_cases hfull : (oldest :: rest).length = c.capacity
          · have hfull' : (cacheOf c).order.length = (cacheOf c).capacity := by
              show c.order.length = c.capacity
              rw [horder, hfull]
            rw [if_pos hfull, if_pos hfull', enter, evict]
            dsimp only [cacheOf]
            rw [horder]
          · have hroom : ¬ (cacheOf c).order.length = (cacheOf c).capacity := by
              show ¬ c.order.length = c.capacity
              rw [horder]
              exact hfull
            rw [if_neg hfull, if_neg hroom, enter]
            dsimp only [cacheOf]
            rw [horder]

end Dedup
