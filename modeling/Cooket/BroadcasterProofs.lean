import Mathlib.Algebra.Order.Group.Nat
import Mathlib.Data.List.Basic
import Mathlib.Data.List.Nodup
import Mathlib.Data.List.Perm.Basic

/-! # The fanout of the realtime service

    `Broadcaster` of `apps/realtime/internal/sse/broadcaster.go`: every client
    has a bounded channel, `Publish` offers an event to each of them without
    waiting, and a client whose channel is full is removed and its channel
    closed.  A client's own `cancel` removes it too.

    Each critical section is one operation here, and so is one read of a client
    from its channel, so a run is any interleaving of them at any reading
    speeds.  A channel operation can PANIC the way Go's does: sending on a
    closed channel, closing a closed channel.

    Identifiers are counted in 64 bits, so the law is about runs with fewer
    than 2^64 `Subscribe` calls: the next one would be given the identifier of
    the first. -/

namespace Broadcaster

variable {E : Type}

/-! ## Channels -/

/-- What Go's runtime makes of a misused channel. -/
inductive Panic where
  | sendOnClosedChannel
  | closeOfClosedChannel
  deriving DecidableEq, Repr

/-- One `Subscribe` call and what became of it.  `queue` and `closedAt` are its
    channel, `closedAt` with the number of events published when it was closed;
    `id` is what its cancel function removes, if anything, and `cancelled` that
    function's `sync.Once`.  `joined` events were published before the call,
    and the client has read `received`. -/
structure Client (E : Type) where
  id : Option Nat
  queue : List E
  closedAt : Option Nat
  cancelled : Bool
  joined : Nat
  received : List E
  deriving DecidableEq, Repr

/-- `case ch <- event` of the `select`, or its `default`. -/
def Client.send (size : Nat) (e : E) (c : Client E) :
    Except Panic (Option (Client E)) :=
  if c.closedAt.isSome then .error .sendOnClosedChannel
  else if c.queue.length < size then .ok (some { c with queue := c.queue ++ [e] })
  else .ok none

/-- `close(ch)`, after `n` events. -/
def Client.close (n : Nat) (c : Client E) : Except Panic (Client E) :=
  if c.closedAt.isSome then .error .closeOfClosedChannel
  else .ok { c with closedAt := some n }

/-- `<-ch`: the oldest event, if there is one. -/
def Client.read (c : Client E) : Client E :=
  match c.queue with
  | [] => c
  | e :: rest => { c with queue := rest, received := c.received ++ [e] }

/-! ## The broadcaster -/

def maximumSubscribers : Nat := 1024

/-- `NewBroadcaster` panics on a buffer of no events. -/
structure Buffer where
  size : Nat
  positive : 0 < size

/-- The broadcaster and its clients, the latter by the order of their calls.
    `subscribers` maps an identifier to the client that owns the channel. -/
structure World (E : Type) where
  clients : List (Client E)
  subscribers : List (Nat × Nat)
  nextID : Nat
  published : List E
  slow : Nat
  deriving DecidableEq, Repr

/-- Before the first call. -/
def World.fresh : World E := ⟨[], [], 0, [], 0⟩

/-- `delete(b.subscribers, id)`. -/
def World.forget (w : World E) (id : Nat) : World E :=
  { w with subscribers := w.subscribers.filter (·.1 ≠ id) }

/-- **`Subscribe`**.  The assignment to the map replaces what stood under the
    identifier. -/
def subscribe (w : World E) : World E :=
  if maximumSubscribers ≤ w.subscribers.length then
    { w with
      clients := w.clients ++
        [⟨none, [], some w.published.length, false, w.published.length, []⟩] }
  else
    { w with
      clients := w.clients ++
        [⟨some w.nextID, [], none, false, w.published.length, []⟩]
      subscribers :=
        (w.forget w.nextID).subscribers ++ [(w.nextID, w.clients.length)]
      nextID := (w.nextID + 1) % 2 ^ 64 }

def World.setClient (w : World E) (h : Nat) (c : Client E) : World E :=
  { w with clients := w.clients.modify h fun _ => c }

/-- One turn of the loop of `Publish`. -/
def offer (size : Nat) (e : E) (w : World E) (entry : Nat × Nat) :
    Except Panic (World E) :=
  match w.clients[entry.2]? with
  | none => .ok w
  | some c => do
      match ← c.send size e with
      | some c' => .ok (w.setClient entry.2 c')
      | none =>
          let c' ← c.close w.published.length
          .ok { (w.setClient entry.2 c').forget entry.1 with slow := w.slow + 1 }

/-- **`Publish`**, the map being iterated in the given order. -/
def publish (size : Nat) (order : List (Nat × Nat)) (e : E) (w : World E) :
    Except Panic (World E) := do
  let w' ← order.foldlM (offer size e) w
  .ok { w' with published := w.published ++ [e] }

/-- **`remove`**. -/
def remove (id : Nat) (w : World E) : Except Panic (World E) :=
  match w.subscribers.find? (·.1 = id) with
  | none => .ok w
  | some (_, h) =>
      match w.clients[h]? with
      | none => .ok (w.forget id)
      | some c => do
          let c' ← c.close w.published.length
          .ok ((w.setClient h c').forget id)

/-- The function `Subscribe` returned to client `h`. -/
def cancel (h : Nat) (w : World E) : Except Panic (World E) :=
  match w.clients[h]? with
  | none => .ok w
  | some c =>
      match c.id, c.cancelled with
      | some id, false => remove id (w.setClient h { c with cancelled := true })
      | _, _ => .ok w

/-- Client `h` reads from its channel. -/
def read (h : Nat) (w : World E) : World E :=
  { w with clients := w.clients.modify h Client.read }

/-! ## Runs -/

/-- One atomic step of some goroutine. -/
inductive Op (E : Type) where
  | subscribe
  | publish (order : List (Nat × Nat)) (e : E)
  | cancel (h : Nat)
  | read (h : Nat)

def exec (b : Buffer) (w : World E) : Op E → Except Panic (World E)
  | .subscribe => .ok (subscribe w)
  | .publish order e => publish b.size order e w
  | .cancel h => cancel h w
  | .read h => .ok (read h w)

/-- The `Subscribe` calls among some steps. -/
def calls : List (Op E) → Nat
  | [] => 0
  | .subscribe :: ops => calls ops + 1
  | _ :: ops => calls ops

/-- Go iterates a map in any order. -/
def Admissible (w : World E) : Op E → Prop
  | .publish order _ => order.Perm w.subscribers
  | _ => True

/-- The worlds an interleaving leads to. -/
inductive Run (b : Buffer) : List (Op E) → World E → Prop
  | nil : Run b [] .fresh
  | snoc {ops w op w'} : Run b ops w → Admissible w op →
      exec b w op = .ok w' → Run b (ops ++ [op]) w'

/-! ## The invariant -/

/-- What a client has been sent, read or not. -/
def Client.stream (c : Client E) : List E := c.received ++ c.queue

/-- The stream is the segment of the published events from the client's call on
    to the closing of its channel. -/
structure Client.Streamed (published : List E) (c : Client E) : Prop where
  joined : c.joined ≤ published.length
  closed : ∀ n, c.closedAt = some n → n ≤ published.length
  segment : c.stream
    = (published.take (c.closedAt.getD published.length)).drop c.joined

/-- The map holds exactly the open channels, each under the identifier its
    client was given. -/
structure Sound (w : World E) : Prop where
  owns : ∀ id h : Nat, (id, h) ∈ w.subscribers →
    ∃ c, w.clients[h]? = some c ∧ c.closedAt = none
  owned : ∀ (h : Nat) (c : Client E), w.clients[h]? = some c → c.closedAt = none →
    ∃ id, (id, h) ∈ w.subscribers
  ids : (w.subscribers.map Prod.fst).Nodup
  handles : (w.subscribers.map Prod.snd).Nodup
  below : ∀ id h, (id, h) ∈ w.subscribers → id < w.nextID
  bounded : w.subscribers.length ≤ maximumSubscribers
  streamed : ∀ (h : Nat) (c : Client E), w.clients[h]? = some c →
    c.Streamed w.published

theorem sound_fresh : Sound (World.fresh : World E) where
  owns _ _ h := nomatch h
  owned _ _ h := nomatch h
  ids := List.nodup_nil
  handles := List.nodup_nil
  below _ _ h := nomatch h
  bounded := Nat.zero_le _
  streamed _ _ h := nomatch h

/-- One identifier owns one channel. -/
theorem Sound.same_handle {w : World E} (hs : Sound w) {id h h' : Nat}
    (hh : (id, h) ∈ w.subscribers) (hh' : (id, h') ∈ w.subscribers) : h = h' :=
  congrArg Prod.snd (List.inj_on_of_nodup_map hs.ids hh hh' rfl)

/-- One channel has one identifier. -/
theorem Sound.same_id {w : World E} (hs : Sound w) {id id' h : Nat}
    (hh : (id, h) ∈ w.subscribers) (hh' : (id', h) ∈ w.subscribers) : id = id' :=
  congrArg Prod.fst (List.inj_on_of_nodup_map hs.handles hh hh' rfl)

/-! ## Steps that move nothing -/

/-- The client's channel is open or closed as before, with the same stream. -/
structure Quiet (c c' : Client E) : Prop where
  closedAt : c'.closedAt = c.closedAt
  joined : c'.joined = c.joined
  stream : c'.stream = c.stream

theorem Quiet.streamed {published : List E} {c c' : Client E} (h : Quiet c c')
    (hc : c.Streamed published) : c'.Streamed published where
  joined := by rw [h.joined]; exact hc.joined
  closed := by rw [h.closedAt]; exact hc.closed
  segment := by rw [h.stream, h.closedAt, h.joined]; exact hc.segment

theorem sound_modify {w : World E} (hs : Sound w) {h : Nat}
    {f : Client E → Client E}
    (hf : ∀ c, w.clients[h]? = some c → Quiet c (f c)) :
    Sound { w with clients := w.clients.modify h f } := by
  -- every client of the new list is one of the old list, or moved quietly
  have hold : ∀ (h' : Nat) (c' : Client E),
      (w.clients.modify h f)[h']? = some c' →
      ∃ c, w.clients[h']? = some c ∧ Quiet c c' := by
    intro h' c' hc'
    rw [List.getElem?_modify] at hc'
    obtain ⟨c, hc, rfl⟩ := Option.map_eq_some_iff.mp hc'
    refine ⟨c, hc, ?_⟩
    by_cases heq : h = h'
    · subst heq
      simpa using hf c hc
    · simp only [if_neg heq]
      exact ⟨rfl, rfl, rfl⟩
  refine { hs with owns := ?_, owned := ?_, streamed := ?_ }
  · intro id h' hin
    obtain ⟨c, hc, hopen⟩ := hs.owns id h' hin
    refine ⟨if h = h' then f c else c, ?_, ?_⟩
    · show (w.clients.modify h f)[h']? = _
      rw [List.getElem?_modify, hc]
      rfl
    · split
      · next heq =>
        subst heq
        rw [(hf c hc).closedAt, hopen]
      · exact hopen
  · intro h' c' hc' hopen
    obtain ⟨c, hc, hq⟩ := hold h' c' hc'
    exact hs.owned h' c hc (hq.closedAt ▸ hopen)
  · intro h' c' hc'
    obtain ⟨c, hc, hq⟩ := hold h' c' hc'
    exact hq.streamed (hs.streamed h' c hc)

theorem quiet_read (c : Client E) : Quiet c c.read := by
  unfold Client.read
  split
  · exact ⟨rfl, rfl, rfl⟩
  · next e rest hq =>
    refine ⟨rfl, rfl, ?_⟩
    simp [Client.stream, hq]

theorem sound_read {w : World E} (hs : Sound w) (h : Nat) : Sound (read h w) :=
  sound_modify hs (fun c _ => quiet_read c)

/-! ## Subscribing -/

/-- A new client has an empty stream. -/
theorem streamed_new (published : List E) (id : Option Nat)
    {closedAt : Option Nat} (h : ∀ n, closedAt = some n → n = published.length) :
    (⟨id, [], closedAt, false, published.length, []⟩ : Client E).Streamed
      published where
  joined := Nat.le_refl _
  closed n hn := Nat.le_of_eq (h n hn)
  segment := by
    show ([] : List E) = _
    refine (List.drop_eq_nil_of_le ?_).symm
    exact List.length_take_le' _ _

/-- The identifier of the next call is not in the map. -/
theorem Sound.next_free {w : World E} (hs : Sound w) :
    (w.forget w.nextID).subscribers = w.subscribers := by
  refine List.filter_eq_self.mpr ?_
  rintro ⟨id, h⟩ hin
  exact decide_eq_true (Nat.ne_of_lt (hs.below id h hin))

theorem sound_subscribe {w : World E} (hs : Sound w)
    (hroom : w.nextID + 1 < 2 ^ 64) : Sound (subscribe w) := by
  have hlast : ∀ {c d : Client E} {h : Nat},
      (w.clients ++ [d])[h]? = some c →
        w.clients[h]? = some c ∨ (h = w.clients.length ∧ c = d) := by
    intro c d h hc
    rw [List.getElem?_append] at hc
    split at hc
    · exact Or.inl hc
    · right
      have hh : h - w.clients.length = 0 := by
        by_contra hne
        rw [List.getElem?_eq_none (by simp; omega)] at hc
        exact nomatch hc
      rw [hh] at hc
      exact ⟨by omega, (Option.some.inj hc).symm⟩
  have hkeep : ∀ {c d : Client E} {h : Nat}, w.clients[h]? = some c →
      (w.clients ++ [d])[h]? = some c := by
    intro c d h hc
    rw [List.getElem?_append_left (List.getElem?_eq_some_iff.mp hc).1]
    exact hc
  unfold subscribe
  rw [hs.next_free, Nat.mod_eq_of_lt hroom]
  split
  · refine { hs with owns := ?_, owned := ?_, streamed := ?_ }
    · intro id h hin
      obtain ⟨c, hc, hopen⟩ := hs.owns id h hin
      exact ⟨c, hkeep hc, hopen⟩
    · intro h c hc hopen
      rcases hlast hc with hc | ⟨-, rfl⟩
      · exact hs.owned h c hc hopen
      · exact nomatch hopen
    · intro h c hc
      rcases hlast hc with hc | ⟨-, rfl⟩
      · exact hs.streamed h c hc
      · exact streamed_new _ _ (fun n hn => (Option.some.inj hn).symm)
  · next hroom =>
    have hfresh : ∀ id h, (id, h) ∈ w.subscribers → h < w.clients.length := by
      intro id h hin
      obtain ⟨c, hc, -⟩ := hs.owns id h hin
      exact (List.getElem?_eq_some_iff.mp hc).1
    refine ⟨?_, ?_, ?_, ?_, ?_, ?_, ?_⟩
    · intro id h hin
      rcases List.mem_append.mp hin with hin | hin
      · obtain ⟨c, hc, hopen⟩ := hs.owns id h hin
        exact ⟨c, hkeep hc, hopen⟩
      · obtain ⟨rfl, rfl⟩ := Prod.mk.inj (List.mem_singleton.mp hin)
        exact ⟨_, List.getElem?_concat_length, rfl⟩
    · intro h c hc hopen
      rcases hlast hc with hc | ⟨rfl, -⟩
      · obtain ⟨id, hin⟩ := hs.owned h c hc hopen
        exact ⟨id, List.mem_append_left _ hin⟩
      · exact ⟨w.nextID, List.mem_append_right _ (List.mem_singleton_self _)⟩
    · rw [List.map_append]
      refine List.Nodup.append hs.ids (List.nodup_singleton _) ?_
      rw [List.map_singleton, List.disjoint_singleton]
      intro hin
      obtain ⟨⟨i, h⟩, hin, hlast⟩ := List.mem_map.mp hin
      exact absurd (hs.below i h hin) (Nat.not_lt.mpr (Nat.le_of_eq hlast.symm))
    · rw [List.map_append]
      refine List.Nodup.append hs.handles (List.nodup_singleton _) ?_
      rw [List.map_singleton, List.disjoint_singleton]
      intro hin
      obtain ⟨⟨id, h⟩, hin, hlen⟩ := List.mem_map.mp hin
      exact absurd (hfresh id h hin) (Nat.not_lt.mpr (Nat.le_of_eq hlen.symm))
    · intro id h hin
      rcases List.mem_append.mp hin with hin | hin
      · exact Nat.lt_succ_of_lt (hs.below id h hin)
      · obtain ⟨rfl, -⟩ := Prod.mk.inj (List.mem_singleton.mp hin)
        exact Nat.lt_succ_self _
    · rw [List.length_append]
      exact Nat.lt_of_not_le hroom
    · intro h c hc
      rcases hlast hc with hc | ⟨-, rfl⟩
      · exact hs.streamed h c hc
      · exact streamed_new _ _ (fun n hn => nomatch hn)

/-! ## Removing -/

/-- A client whose channel is closed now keeps what it was sent. -/
theorem streamed_closed {published : List E} {c : Client E}
    (hc : c.Streamed published) (hopen : c.closedAt = none) :
    ({ c with closedAt := some published.length } : Client E).Streamed
      published where
  joined := hc.joined
  closed n hn := Nat.le_of_eq (Option.some.inj hn).symm
  segment := by
    have h := hc.segment
    rw [hopen] at h
    exact h

/-- Closing the channel of a registered client and deleting its entry. -/
theorem sound_close {w : World E} (hs : Sound w) {id h : Nat} {c : Client E}
    (hin : (id, h) ∈ w.subscribers) (hc : w.clients[h]? = some c)
    (hopen : c.closedAt = none) :
    Sound ((w.setClient h { c with closedAt := some w.published.length }).forget
      id) := by
  have hget : ∀ h' : Nat, (w.clients.modify h fun _ =>
      { c with closedAt := some w.published.length })[h']?
      = if h = h' then some { c with closedAt := some w.published.length }
        else w.clients[h']? := by
    intro h'
    rw [List.getElem?_modify]
    by_cases heq : h = h'
    · subst heq
      simp [hc]
    · simp [heq]
  refine ⟨?_, ?_, ?_, ?_, ?_, ?_, ?_⟩
  · intro id' h' hin'
    obtain ⟨hin', hne⟩ := List.mem_filter.mp hin'
    have hneh : h ≠ h' := by
      rintro rfl
      exact absurd (hs.same_id hin' hin) (by simpa using hne)
    obtain ⟨c', hc', hopen'⟩ := hs.owns id' h' hin'
    exact ⟨c', (hget h').trans ((if_neg hneh).trans hc'), hopen'⟩
  · intro h' c' hc' hopen'
    have hc' := (hget h').symm.trans hc'
    split at hc'
    · obtain rfl := Option.some.inj hc'
      exact nomatch hopen'
    · next hneh =>
      obtain ⟨id', hin'⟩ := hs.owned h' c' hc' hopen'
      refine ⟨id', List.mem_filter.mpr ⟨hin', ?_⟩⟩
      have : id' ≠ id := by
        rintro rfl
        exact hneh (hs.same_handle hin hin')
      simpa using this
  · exact (List.filter_sublist.map _).nodup hs.ids
  · exact (List.filter_sublist.map _).nodup hs.handles
  · intro id' h' hin'
    exact hs.below id' h' (List.mem_of_mem_filter hin')
  · exact Nat.le_trans (List.length_filter_le _ _) hs.bounded
  · intro h' c' hc'
    have hc' := (hget h').symm.trans hc'
    split at hc'
    · obtain rfl := Option.some.inj hc'
      exact streamed_closed (hs.streamed h c hc) hopen
    · exact hs.streamed h' c' hc'

/-- **`remove`** closes an open channel or does nothing. -/
theorem remove_sound {w : World E} (hs : Sound w) (id : Nat) :
    ∃ w', remove id w = .ok w' ∧ Sound w' ∧ w'.nextID = w.nextID := by
  unfold remove
  split
  · exact ⟨w, rfl, hs, rfl⟩
  · next id' h hfind =>
    have hin := List.mem_of_find?_eq_some hfind
    have hid : id' = id := by simpa using List.find?_some hfind
    subst hid
    obtain ⟨c, hc, hopen⟩ := hs.owns id' h hin
    simp only [hc, Client.close, hopen, Option.isSome_none, Bool.false_eq_true,
      if_false]
    exact ⟨_, rfl, sound_close hs hin hc hopen, rfl⟩

theorem cancel_sound {w : World E} (hs : Sound w) (h : Nat) :
    ∃ w', cancel h w = .ok w' ∧ Sound w' ∧ w'.nextID = w.nextID := by
  unfold cancel
  split
  · exact ⟨w, rfl, hs, rfl⟩
  · next c hc =>
    split
    · next id _ _ =>
      refine remove_sound (sound_modify hs ?_) id
      intro c' hc'
      obtain rfl := Option.some.inj (hc.symm.trans hc')
      exact ⟨rfl, rfl, rfl⟩
    · exact ⟨w, rfl, hs, rfl⟩

/-! ## Publishing -/

/-- What an offer makes of an open channel. -/
def Client.offered (size n : Nat) (e : E) (c : Client E) : Client E :=
  if c.queue.length < size then { c with queue := c.queue ++ [e] }
  else { c with closedAt := some n }

/-- The world after the entries of `order` were offered the event: their
    clients have it or are closed, the closed ones left the map. -/
structure Offered (size : Nat) (e : E) (order : List (Nat × Nat))
    (w w' : World E) : Prop where
  clients : ∀ h : Nat, w'.clients[h]? =
    if h ∈ order.map Prod.snd then
      (w.clients[h]?).map (Client.offered size w.published.length e)
    else w.clients[h]?
  sub : w'.subscribers.Sublist w.subscribers
  kept : ∀ entry : Nat × Nat, entry ∈ w'.subscribers ↔
    entry ∈ w.subscribers ∧ ∀ h, (entry.1, h) ∈ order →
      ∀ c : Client E, w.clients[h]? = some c → c.queue.length < size
  published : w'.published = w.published
  nextID : w'.nextID = w.nextID

/-- One offer to an open channel. -/
theorem offer_open {size : Nat} {e : E} {w : World E} {id h : Nat}
    {c : Client E} (hc : w.clients[h]? = some c) (hopen : c.closedAt = none) :
    ∃ w', offer size e w (id, h) = .ok w' ∧ Offered size e [(id, h)] w w' := by
  have hget : ∀ h' : Nat, (w.clients.modify h fun _ =>
      c.offered size w.published.length e)[h']? =
        if h' ∈ [h] then
          (w.clients[h']?).map (Client.offered size w.published.length e)
        else w.clients[h']? := by
    intro h'
    rw [List.getElem?_modify]
    by_cases heq : h = h'
    · subst heq
      simp [hc]
    · simp [heq, Ne.symm heq]
  by_cases hroom : c.queue.length < size
  · have hoff : c.offered size w.published.length e
        = { c with queue := c.queue ++ [e] } := if_pos hroom
    refine ⟨w.setClient h { c with queue := c.queue ++ [e] }, ?_, ?_⟩
    · simp only [offer, hc, Client.send, hopen, Option.isSome_none,
        Bool.false_eq_true, if_false, hroom, if_true]
      rfl
    · refine ⟨?_, List.Sublist.refl _, ?_, rfl, rfl⟩
      · rw [← hoff]
        exact hget
      · intro entry
        refine ⟨fun hin => ⟨hin, ?_⟩, fun hin => hin.1⟩
        intro h' hmem c' hc'
        obtain ⟨-, rfl⟩ := Prod.mk.inj (List.mem_singleton.mp hmem)
        obtain rfl := Option.some.inj (hc.symm.trans hc')
        exact hroom
  · have hoff : c.offered size w.published.length e
        = { c with closedAt := some w.published.length } := if_neg hroom
    refine ⟨{ (w.setClient h { c with closedAt := some w.published.length
      }).forget id with slow := w.slow + 1 }, ?_, ?_⟩
    · simp only [offer, hc, Client.send, Client.close, hopen, Option.isSome_none,
        Bool.false_eq_true, if_false, hroom]
      rfl
    · refine ⟨?_, List.filter_sublist, ?_, rfl, rfl⟩
      · rw [← hoff]
        exact hget
      · intro entry
        show entry ∈ w.subscribers.filter (·.1 ≠ id) ↔ _
        rw [List.mem_filter, decide_eq_true_iff]
        refine and_congr_right (fun _ => ⟨?_, ?_⟩)
        · intro hne h' hmem
          exact absurd (Prod.mk.inj (List.mem_singleton.mp hmem)).1 hne
        · rintro hall rfl
          exact hroom (hall h (List.mem_singleton_self _) c hc)

/-- Offering to one entry, then to others with other channels. -/
theorem Offered.cons {size : Nat} {e : E} {id h : Nat}
    {order : List (Nat × Nat)} {w w₁ w₂ : World E}
    (h₁ : Offered size e [(id, h)] w w₁) (h₂ : Offered size e order w₁ w₂)
    (hout : h ∉ order.map Prod.snd) : Offered size e ((id, h) :: order) w w₂ where
  clients h' := by
    rw [h₂.clients h', h₁.clients h', h₁.published]
    by_cases heq : h' = h
    · subst heq
      simp [hout]
    · have hne : h' ∉ [(id, h)].map Prod.snd := by simpa using heq
      have hmem : h' ∈ ((id, h) :: order).map Prod.snd
          ↔ h' ∈ order.map Prod.snd := by
        rw [List.map_cons, List.mem_cons]
        exact or_iff_right heq
      simp only [hmem, hne, if_false]
  sub := h₂.sub.trans h₁.sub
  kept entry := by
    have hsame : ∀ h', h' ∈ order.map Prod.snd →
        w₁.clients[h']? = w.clients[h']? := by
      intro h' hin
      have hne : h' ≠ h := by
        rintro rfl
        exact hout hin
      rw [h₁.clients h', if_neg (by simpa using hne)]
    rw [h₂.kept entry, h₁.kept entry, and_assoc]
    refine and_congr_right (fun _ => ⟨?_, ?_⟩)
    · rintro ⟨hfirst, hrest⟩ h' hmem c hc
      rcases List.mem_cons.mp hmem with heq | hin
      · exact hfirst h' (List.mem_singleton.mpr heq) c hc
      · have hmap := List.mem_map_of_mem (f := Prod.snd) hin
        exact hrest h' hin c ((hsame h' hmap).trans hc)
    · intro hall
      refine ⟨?_, ?_⟩
      · intro h' hmem
        exact hall h' (List.mem_cons.mpr (Or.inl (List.mem_singleton.mp hmem)))
      · intro h' hin c hc
        have hmap := List.mem_map_of_mem (f := Prod.snd) hin
        exact hall h' (List.mem_cons_of_mem _ hin) c ((hsame h' hmap).symm.trans hc)
  published := h₂.published.trans h₁.published
  nextID := h₂.nextID.trans h₁.nextID

/-- The loop never meets a closed channel. -/
theorem offers_open {size : Nat} {e : E} :
    ∀ {order : List (Nat × Nat)} {w : World E},
      (order.map Prod.snd).Nodup →
      (∀ entry ∈ order, ∃ c, w.clients[entry.2]? = some c ∧ c.closedAt = none) →
      ∃ w', order.foldlM (offer size e) w = .ok w' ∧
        Offered size e order w w' := by
  intro order
  induction order with
  | nil =>
      intro w _ _
      refine ⟨w, rfl, ?_, List.Sublist.refl _, ?_, rfl, rfl⟩
      · intro h
        simp
      · intro entry
        simp
  | cons entry order ih =>
      intro w hnodup hopen
      obtain ⟨id, h⟩ := entry
      obtain ⟨hout, hnodup⟩ := List.nodup_cons.mp hnodup
      obtain ⟨c, hc, hc0⟩ := hopen (id, h) (List.mem_cons_self ..)
      obtain ⟨w₁, hw₁, h₁⟩ := @offer_open _ size e _ id _ _ hc hc0
      have hopen₁ : ∀ entry ∈ order, ∃ c,
          w₁.clients[entry.2]? = some c ∧ c.closedAt = none := by
        intro entry hin
        obtain ⟨c', hc', hc0'⟩ := hopen entry (List.mem_cons_of_mem _ hin)
        refine ⟨c', ?_, hc0'⟩
        have hne : entry.2 ∉ [(id, h)].map Prod.snd := by
          rw [List.map_singleton, List.mem_singleton]
          intro heq
          exact hout (List.mem_map.mpr ⟨entry, hin, heq⟩)
        rw [h₁.clients entry.2, if_neg hne]
        exact hc'
      obtain ⟨w₂, hw₂, h₂⟩ := ih hnodup hopen₁
      refine ⟨w₂, ?_, h₁.cons h₂ hout⟩
      rw [List.foldlM_cons, hw₁]
      exact hw₂

/-- A stream after one more event was published and offered. -/
theorem streamed_offered {size : Nat} {published : List E} {e : E}
    {c : Client E} (hc : c.Streamed published) (hopen : c.closedAt = none) :
    (c.offered size published.length e).Streamed (published ++ [e]) := by
  have hlen : published.length ≤ (published ++ [e]).length := by simp
  have hseg : c.stream = published.drop c.joined := by
    have h := hc.segment
    rwa [hopen, Option.getD_none, List.take_length] at h
  unfold Client.offered
  split
  · refine ⟨Nat.le_trans hc.joined hlen, ?_, ?_⟩
    · intro n hn
      rw [show c.closedAt = some n from hn] at hopen
      exact nomatch hopen
    · show c.received ++ (c.queue ++ [e]) = _
      rw [show ({ c with queue := c.queue ++ [e] } : Client E).closedAt = none
        from hopen, Option.getD_none, List.take_length,
        List.drop_append_of_le_length hc.joined, ← hseg, ← List.append_assoc]
      rfl
  · refine ⟨Nat.le_trans hc.joined hlen, ?_, ?_⟩
    · intro n hn
      obtain rfl := Option.some.inj hn
      exact hlen
    · show c.stream = _
      rw [Option.getD_some, List.take_left, hseg]

/-- A closed stream does not see later events. -/
theorem streamed_later {published : List E} {e : E} {c : Client E}
    (hc : c.Streamed published) (hclosed : c.closedAt ≠ none) :
    c.Streamed (published ++ [e]) := by
  obtain ⟨n, hn⟩ := Option.ne_none_iff_exists'.mp hclosed
  have hle := hc.closed n hn
  have hlen : published.length ≤ (published ++ [e]).length := by simp
  refine ⟨Nat.le_trans hc.joined hlen, ?_, ?_⟩
  · intro m hm
    exact Nat.le_trans (hc.closed m hm) hlen
  · have h := hc.segment
    rw [hn, Option.getD_some] at h ⊢
    rw [List.take_append_of_le_length hle]
    exact h

/-- **`Publish`** meets no closed channel and keeps the invariant, in whatever
    order the map is iterated. -/
theorem publish_sound {size : Nat} {order : List (Nat × Nat)} {e : E}
    {w : World E} (hs : Sound w) (hperm : order.Perm w.subscribers) :
    ∃ w', publish size order e w = .ok w' ∧ Sound w' ∧
      w'.nextID = w.nextID := by
  obtain ⟨w', hw', hoff⟩ := @offers_open _ size e _ _
    ((hperm.map Prod.snd).nodup_iff.mpr hs.handles)
    (fun entry hin => hs.owns entry.1 entry.2 (hperm.mem_iff.mp hin))
  refine ⟨{ w' with published := w.published ++ [e] }, ?_, ?_, hoff.nextID⟩
  · rw [publish, hw', ← hoff.published]
    rfl
  -- a client is offered the event exactly if its channel is in the map
  have hget : ∀ (h : Nat) (c' : Client E), w'.clients[h]? = some c' →
      ∃ c, w.clients[h]? = some c ∧
        ((c.closedAt = none ∧ (∃ id, (id, h) ∈ w.subscribers) ∧
            c' = c.offered size w.published.length e) ∨
          (c.closedAt ≠ none ∧ c' = c)) := by
    intro h c' hc'
    rw [hoff.clients h] at hc'
    split at hc'
    · next hin =>
      obtain ⟨c, hc, rfl⟩ := Option.map_eq_some_iff.mp hc'
      obtain ⟨⟨id, h₀⟩, hentry, rfl⟩ := List.mem_map.mp hin
      have hsub := hperm.mem_iff.mp hentry
      obtain ⟨c₀, hc₀, hopen⟩ := hs.owns id h₀ hsub
      obtain rfl := Option.some.inj (hc.symm.trans hc₀)
      exact ⟨c, hc, Or.inl ⟨hopen, ⟨id, hsub⟩, rfl⟩⟩
    · next hout =>
      refine ⟨c', hc', Or.inr ⟨?_, rfl⟩⟩
      intro hopen
      obtain ⟨id, hin⟩ := hs.owned h c' hc' hopen
      exact hout (List.mem_map.mpr ⟨(id, h), hperm.mem_iff.mpr hin, rfl⟩)
  refine ⟨?_, ?_, ?_, ?_, ?_, ?_, ?_⟩
  · intro id h hin
    obtain ⟨hin₀, hroom⟩ := (hoff.kept (id, h)).mp hin
    obtain ⟨c, hc, hopen⟩ := hs.owns id h hin₀
    have horder := hperm.mem_iff.mpr hin₀
    refine ⟨c.offered size w.published.length e, ?_, ?_⟩
    · show w'.clients[h]? = _
      rw [hoff.clients h, if_pos (List.mem_map.mpr ⟨(id, h), horder, rfl⟩), hc]
      rfl
    · rw [Client.offered, if_pos (hroom h horder c hc)]
      exact hopen
  · intro h c' hc' hopen'
    obtain ⟨c, hc, ⟨hopen, ⟨id, hin⟩, rfl⟩ | ⟨hclosed, rfl⟩⟩ := hget h c' hc'
    · refine ⟨id, (hoff.kept (id, h)).mpr ⟨hin, ?_⟩⟩
      intro h' hmem c₁ hc₁
      obtain rfl := hs.same_handle hin (hperm.mem_iff.mp hmem)
      obtain rfl := Option.some.inj (hc.symm.trans hc₁)
      by_contra hfull
      rw [Client.offered, if_neg hfull] at hopen'
      exact nomatch hopen'
    · exact absurd hopen' hclosed
  · exact (hoff.sub.map _).nodup hs.ids
  · exact (hoff.sub.map _).nodup hs.handles
  · intro id h hin
    show id < w'.nextID
    rw [hoff.nextID]
    exact hs.below id h (hoff.sub.subset hin)
  · exact Nat.le_trans hoff.sub.length_le hs.bounded
  · intro h c' hc'
    obtain ⟨c, hc, ⟨hopen, -, rfl⟩ | ⟨hclosed, rfl⟩⟩ := hget h c' hc'
    · exact streamed_offered (hs.streamed h c hc) hopen
    · exact streamed_later (hs.streamed h c' hc) hclosed

/-! ## Every run -/

theorem calls_append (ops ops' : List (Op E)) :
    calls (ops ++ ops') = calls ops + calls ops' := by
  induction ops with
  | nil => exact (Nat.zero_add _).symm
  | cons op ops ih =>
      cases op with
      | subscribe =>
          show calls (ops ++ ops') + 1 = calls ops + 1 + calls ops'
          rw [ih]
          omega
      | publish order e => exact ih
      | cancel h => exact ih
      | read h => exact ih

/-- Every operation returns; one that does not exhaust the identifiers keeps
    the invariant, and only `Subscribe` uses one up. -/
theorem exec_sound (b : Buffer) {w : World E} (hs : Sound w) {op : Op E}
    (h : Admissible w op) :
    ∃ w', exec b w op = .ok w' ∧
      (w.nextID + calls [op] < 2 ^ 64 →
        Sound w' ∧ w'.nextID ≤ w.nextID + calls [op]) := by
  cases op with
  | subscribe =>
      refine ⟨_, rfl, fun hroom => ⟨sound_subscribe hs hroom, ?_⟩⟩
      unfold subscribe
      split
      · exact Nat.le_succ _
      · exact Nat.mod_le _ _
  | publish order e =>
      obtain ⟨w', hw', hs', hnext⟩ := publish_sound hs h
      exact ⟨w', hw', fun _ => ⟨hs', Nat.le_of_eq hnext⟩⟩
  | cancel c =>
      obtain ⟨w', hw', hs', hnext⟩ := cancel_sound hs c
      exact ⟨w', hw', fun _ => ⟨hs', Nat.le_of_eq hnext⟩⟩
  | read c => exact ⟨_, rfl, fun _ => ⟨sound_read hs c, Nat.le_refl _⟩⟩

theorem Run.sound {b : Buffer} {ops : List (Op E)} {w : World E}
    (h : Run b ops w) (hcalls : calls ops < 2 ^ 64) :
    Sound w ∧ w.nextID ≤ calls ops := by
  induction h with
  | nil => exact ⟨sound_fresh, Nat.le_refl _⟩
  | snoc _ hadm hexec ih =>
      rw [calls_append] at hcalls ⊢
      obtain ⟨hs, hnext⟩ := ih (by omega)
      obtain ⟨w', hw', hkeeps⟩ := exec_sound b hs hadm
      rw [hexec] at hw'
      obtain rfl := Except.ok.inj hw'
      obtain ⟨hs', hnext'⟩ := hkeeps (by omega)
      exact ⟨hs', by omega⟩

/-- **THE FANOUT LAW**, in every world an interleaving leads to.  No operation
    panics there; no more subscribers are registered than allowed; and what a
    client was sent, in the order it was sent, is the segment of the published
    events that starts with the first one after its call and ends where its
    channel was closed, or at the last one while it is open. -/
theorem broadcaster_law {b : Buffer} {ops : List (Op E)} {w : World E}
    (h : Run b ops w) (hcalls : calls ops < 2 ^ 64) :
    (∀ op, Admissible w op → ∃ w', exec b w op = .ok w') ∧
    w.subscribers.length ≤ maximumSubscribers ∧
    ∀ c ∈ w.clients, c.stream
      = (w.published.take (c.closedAt.getD w.published.length)).drop c.joined := by
  obtain ⟨hs, -⟩ := h.sound hcalls
  refine ⟨?_, hs.bounded, ?_⟩
  · intro op hadm
    obtain ⟨w', hw', -⟩ := exec_sound b hs hadm
    exact ⟨w', hw'⟩
  · intro c hc
    obtain ⟨i, hi⟩ := List.mem_iff_getElem?.mp hc
    exact (hs.streamed i c hi).segment

/-- A client with room for one event is sent one, misses none before it is
    removed at the next, and reads it after its channel was closed. -/
def slowClient : World Nat where
  clients := [⟨some 0, [], some 1, true, 0, [7]⟩]
  subscribers := []
  nextID := 1
  published := [7, 8]
  slow := 1

theorem run_slowClient :
    Run ⟨1, by decide⟩
      [.subscribe, .publish [(0, 0)] 7, .publish [(0, 0)] 8, .read 0, .cancel 0]
      slowClient := by
  have h₁ := @Run.snoc Nat ⟨1, by decide⟩ [] _ .subscribe _ .nil trivial rfl
  have h₂ := @Run.snoc Nat _ _ _ (.publish [(0, 0)] 7) _ h₁ (List.Perm.refl _) rfl
  have h₃ := @Run.snoc Nat _ _ _ (.publish [(0, 0)] 8) _ h₂ (List.Perm.refl _) rfl
  have h₄ := @Run.snoc Nat _ _ _ (.read 0) _ h₃ trivial rfl
  exact @Run.snoc Nat _ _ _ (.cancel 0) _ h₄ trivial rfl

theorem broadcaster_law_slowClient :
    (∀ op, Admissible slowClient op →
      ∃ w', exec ⟨1, by decide⟩ slowClient op = .ok w') ∧
    slowClient.subscribers.length ≤ maximumSubscribers ∧
    ∀ c ∈ slowClient.clients, c.stream
      = (slowClient.published.take
          (c.closedAt.getD slowClient.published.length)).drop c.joined :=
  broadcaster_law run_slowClient (by decide)

end Broadcaster
