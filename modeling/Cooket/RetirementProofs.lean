import Cooket.OverlayProofs
import Cooket.RunLawProofs
import Cooket.TokenRealtimeProofs

/-! # When a page forgets an event it received

    A token page overlays the events it received on three snapshots: the
    token, the list of trades, and the chart of the timeframe on show, whose
    older snapshots stay in the query cache.  An event is RETIRED once every
    surface has reported a snapshot through its block
    (`safeRealtimeRetirementFloor`), and the buffer keeps the last 256.

    The floor of the buffer never goes down.  A SNAPSHOT ON SHOW CAN: a
    refetch may answer with an older block, and going back to a timeframe shows
    its cached chart again.  Then the overlay lacks what was retired between
    the two (`cached_chart_gap`).  `overlay_complete` is the guarantee that
    holds: while no snapshot on show is older than the floor, and the buffer
    has room, nothing is forgotten too early. -/

namespace Retirement

open Contract MarketLog TokenRealtime TradeRows

/-! ## Watermarks -/

/-- `RealtimeSurfaceWatermarks`. -/
structure Watermarks where
  token : Option Nat := none
  chart : Option Nat := none
  trades : Option Nat := none
  deriving DecidableEq, Repr

/-- `RealtimeSurface`. -/
inductive Surface where
  | token
  | chart
  | trades
  deriving DecidableEq, Repr

def Watermarks.get (w : Watermarks) : Surface → Option Nat
  | .token => w.token
  | .chart => w.chart
  | .trades => w.trades

def Watermarks.set (w : Watermarks) (surface : Surface) (block : Nat) :
    Watermarks :=
  match surface with
  | .token => { w with token := some block }
  | .chart => { w with chart := some block }
  | .trades => { w with trades := some block }

/-- `validWatermark`, of a block that may be absent. -/
def validWatermark (value : Option Nat) : Option Nat :=
  value.filter (· ≤ maxSafeInteger)

/-- `safeRealtimeRetirementFloor`: absent unless every surface has a valid
    watermark. -/
def safeRealtimeRetirementFloor (w : Watermarks) : Option Nat := do
  let token ← validWatermark w.token
  let chart ← validWatermark w.chart
  let trades ← validWatermark w.trades
  some (min token (min chart trades))

/-- `advanceRealtimeSurfaceWatermark`: no block drops the chart's watermark, an
    older one is ignored. -/
def advanceRealtimeSurfaceWatermark (current : Watermarks)
    (surface : Surface) (block : Option Nat) : Watermarks :=
  match block with
  | none => if surface = .chart then { current with chart := none } else current
  | some n =>
      if maxSafeInteger < n then current
      else
        match current.get surface with
        | none => current.set surface n
        | some prior => if prior < n then current.set surface n else current

/-! ## The page -/

/-- The state of a token page: the `indexed_through_block` of the snapshots it
    has, the watermarks that the chart and the trades reported, and the buffer
    of `useTokenRealtimeTrades` with its floor. -/
structure Page where
  token : Option Nat := none
  trades : Option Nat := none
  charts : ChartInterval → Option Nat := fun _ => none
  timeframe : ChartInterval := .m5
  watermarks : Watermarks := {}
  floor : Option Nat := none
  events : List Event := []

/-- `retireThroughBlock` of a render. -/
def Page.retireThroughBlock (p : Page) : Option Nat :=
  safeRealtimeRetirementFloor { p.watermarks with token := p.token }

/-- What `useTokenRealtimeTrades` returns to the page. -/
def Page.overlay (tokenAddress : Address) (p : Page) : List Event :=
  p.events.filter fun event => event.token = tokenAddress &&
    (match p.retireThroughBlock with
      | none => true
      | some block => block < event.blockNumber)

/-- The chart on show. -/
def Page.chart (p : Page) : Option Nat := p.charts p.timeframe

/-- The effect that retires through a block. -/
def Page.retire (tokenAddress : Address) (p : Page) : Page :=
  match p.retireThroughBlock with
  | none => p
  | some block =>
      let watermark := match p.floor with
        | none => block
        | some prior => max prior block
      { p with
        floor := some watermark
        events := p.events.filter fun event =>
          event.token ≠ tokenAddress || watermark < event.blockNumber }

/-- What happens to a page: a message of the stream, a snapshot that arrives
    (of the chart, for any timeframe), a cached chart that is collected, the
    reader's choice of a timeframe, and the three effects, which run between
    these in any order. -/
inductive Action where
  | receive (event : Event)
  | tokenSnapshot (block : Option Nat)
  | tradesSnapshot (block : Option Nat)
  | chartSnapshot (timeframe : ChartInterval) (block : Option Nat)
  | collectChart (timeframe : ChartInterval)
  | switchTimeframe (timeframe : ChartInterval)
  | observeChart
  | observeTrades
  | retire

/-- A surface reports the block of the snapshot it shows, if it shows one. -/
def Page.observe (p : Page) (surface : Surface) (shown : Option Nat) : Page :=
  match shown with
  | none => p
  | some block =>
      { p with watermarks :=
          advanceRealtimeSurfaceWatermark p.watermarks surface (some block) }

def Page.step (tokenAddress : Address) (p : Page) : Action → Page
  | .receive event =>
      { p with events := receive tokenAddress p.floor p.events event }
  | .tokenSnapshot block => { p with token := block }
  | .tradesSnapshot block => { p with trades := block }
  | .chartSnapshot timeframe block =>
      { p with charts := Function.update p.charts timeframe block }
  | .collectChart timeframe =>
      if timeframe = p.timeframe then p
      else { p with charts := Function.update p.charts timeframe none }
  | .switchTimeframe timeframe =>
      { p with
        watermarks := advanceRealtimeSurfaceWatermark p.watermarks .chart none
        timeframe := timeframe }
  | .observeChart => p.observe .chart p.chart
  | .observeTrades => p.observe .trades p.trades
  | .retire => p.retire tokenAddress

/-! ## What a page should hold -/

/-- A page and the events it received that were not removed. -/
structure Session where
  page : Page := {}
  live : List Event := []

def Session.step (tokenAddress : Address) (s : Session) (a : Action) :
    Session where
  page := s.page.step tokenAddress a
  live :=
    match a with
    | .receive event =>
        match parseRealtimeTrade tokenAddress event with
        | none => s.live
        | some event =>
            if event.removed then
              s.live.filter fun item => item.identity ≠ event.identity
            else s.live ++ [event]
    | _ => s.live

/-- A snapshot on show goes through the block. -/
def Page.Shows (p : Page) (block : Nat) : Prop :=
  p.token = some block ∨ p.trades = some block ∨ p.chart = some block

/-- The overlay has every live event that comes after a snapshot on show. -/
def Complete (tokenAddress : Address) (s : Session) : Prop :=
  ∀ event ∈ s.live, ∀ block, s.page.Shows block → block < event.blockNumber →
    event ∈ s.page.overlay tokenAddress

/-! ## When nothing is forgotten too early -/

/-- The block is not older than the bound, where both are there. -/
def NotBefore (bound block : Option Nat) : Prop :=
  ∀ b, bound = some b → ∀ n, block = some n → b ≤ n

/-- The condition on an action, in the state before it: a snapshot that comes
    on show is not older than the floor of the buffer, nor than what its
    surface has reported; a new event finds room in the buffer; and one that is
    already buffered comes again unchanged. -/
def Careful (tokenAddress : Address) (s : Session) : Action → Prop
  | .receive event =>
      (parseRealtimeTrade tokenAddress event).isSome = true →
      event.removed = false →
      (∀ item ∈ s.page.events, item.identity = event.identity →
        item = event) ∧
      (event ∉ s.page.events → s.page.events.length < DEDUPE_CAPACITY)
  | .tokenSnapshot block => NotBefore s.page.floor block
  | .tradesSnapshot block => NotBefore s.page.floor block ∧
      NotBefore s.page.watermarks.trades block
  | .chartSnapshot timeframe block => timeframe = s.page.timeframe →
      NotBefore s.page.floor block ∧ NotBefore s.page.watermarks.chart block
  | .switchTimeframe timeframe =>
      NotBefore s.page.floor (s.page.charts timeframe)
  | .collectChart _ | .observeChart | .observeTrades | .retire => True

/-- The invariant of careful runs: the buffer has every live event above the
    floor, and no snapshot on show is older than the floor or than its
    surface's watermark. -/
structure Inv (tokenAddress : Address) (s : Session) : Prop where
  owned : ∀ event ∈ s.page.events, event.token = tokenAddress
  kept : ∀ event ∈ s.live,
    (∀ watermark, s.page.floor = some watermark →
      watermark < event.blockNumber) → event ∈ s.page.events
  token : NotBefore s.page.floor s.page.token
  trades : NotBefore s.page.floor s.page.trades
  chart : NotBefore s.page.floor s.page.chart
  reportedTrades : NotBefore s.page.watermarks.trades s.page.trades
  reportedChart : NotBefore s.page.watermarks.chart s.page.chart

variable {tokenAddress : Address}

/-- What the floor is the minimum of. -/
theorem safeRealtimeRetirementFloor_eq_some {w : Watermarks} {block : Nat} :
    safeRealtimeRetirementFloor w = some block ↔
      ∃ token chart trades, validWatermark w.token = some token ∧
        validWatermark w.chart = some chart ∧
        validWatermark w.trades = some trades ∧
        min token (min chart trades) = block := by
  simp only [safeRealtimeRetirementFloor, Option.bind_eq_bind,
    Option.bind_eq_some_iff, Option.some.injEq, exists_and_left]

theorem of_validWatermark {value : Option Nat} {n : Nat}
    (h : validWatermark value = some n) : value = some n :=
  (Option.filter_eq_some_iff.mp h).1

/-- A render retires through no snapshot on show. -/
theorem retireThroughBlock_le {s : Session} (h : Inv tokenAddress s)
    {block shown : Nat} (hblock : s.page.retireThroughBlock = some block)
    (hshown : s.page.Shows shown) : block ≤ shown := by
  obtain ⟨token, chart, trades, ht, hc, htr, rfl⟩ :=
    safeRealtimeRetirementFloor_eq_some.mp hblock
  rcases hshown with htoken | htrades | hchart
  · have heq : token = shown :=
      Option.some.inj ((of_validWatermark ht).symm.trans htoken)
    omega
  · have hle : trades ≤ shown :=
      h.reportedTrades trades (of_validWatermark htr) shown htrades
    omega
  · have hle : chart ≤ shown :=
      h.reportedChart chart (of_validWatermark hc) shown hchart
    omega

/-- No snapshot on show is older than the floor. -/
theorem floor_le {s : Session} (h : Inv tokenAddress s) {floor shown : Nat}
    (hfloor : s.page.floor = some floor) (hshown : s.page.Shows shown) :
    floor ≤ shown := by
  rcases hshown with htoken | htrades | hchart
  · exact h.token floor hfloor shown htoken
  · exact h.trades floor hfloor shown htrades
  · exact h.chart floor hfloor shown hchart

/-- The invariant is enough. -/
theorem Inv.complete {s : Session} (h : Inv tokenAddress s) :
    Complete tokenAddress s := by
  intro event hlive block hshows hlater
  have hbuffered : event ∈ s.page.events := by
    refine h.kept event hlive ?_
    intro watermark hfloor
    exact lt_of_le_of_lt (floor_le h hfloor hshows) hlater
  rw [Page.overlay, List.mem_filter]
  refine ⟨hbuffered, ?_⟩
  have howned := h.owned event hbuffered
  cases hretire : s.page.retireThroughBlock with
  | none => simp [howned]
  | some through =>
      have hle := retireThroughBlock_le h hretire hshows
      simp [howned, lt_of_le_of_lt hle hlater]

/-! ## One action -/

theorem notBefore_none (bound : Option Nat) : NotBefore bound none := by
  intro b _ n hn
  cases hn

/-- What a surface reports is what it shows, or less. -/
theorem notBefore_advance {w : Watermarks} {surface other : Surface}
    {shown : Option Nat} {block : Nat}
    (h : NotBefore (w.get other) shown)
    (hsame : surface = other → shown = some block) :
    NotBefore ((advanceRealtimeSurfaceWatermark w surface
      (some block)).get other) shown := by
  unfold advanceRealtimeSurfaceWatermark
  have hset : NotBefore ((w.set surface block).get other) shown := by
    by_cases heq : surface = other
    · subst heq
      intro b hb n hn
      rw [hsame rfl] at hn
      cases surface <;> simp_all [Watermarks.set, Watermarks.get]
    · have hother : (w.set surface block).get other = w.get other := by
        cases surface <;> cases other <;>
          first | rfl | exact absurd rfl heq
      rwa [hother]
  dsimp only
  split_ifs
  · exact h
  · cases w.get surface with
    | none => exact hset
    | some prior =>
        dsimp only
        split_ifs
        · exact hset
        · exact h

/-- A removal takes no event of another identity. -/
theorem mem_received_removed {p : Page} {event item : Event}
    (hremoved : event.removed = true) (hitem : item ∈ p.events)
    (hother : item.identity ≠ event.identity) :
    item ∈ received p.floor p.events event := by
  rw [received_removed hremoved]
  exact List.mem_filter.mpr ⟨hitem, by simpa using hother⟩

/-- An event that arrives, while there is room for it, pushes nothing out. -/
theorem mem_received_old {p : Page} {event item : Event}
    (hremoved : event.removed = false) (hitem : item ∈ p.events)
    (hroom : event ∉ p.events → p.events.length < DEDUPE_CAPACITY) :
    item ∈ received p.floor p.events event := by
  cases hretired : retired p.floor event.blockNumber with
  | true => rwa [received_retired hremoved hretired]
  | false =>
      by_cases hknown : ∃ other ∈ p.events, other.identity = event.identity
      · rwa [received_known hremoved hknown]
      · have hnew : ∀ other ∈ p.events, other.identity ≠ event.identity :=
          fun other hin heq => hknown ⟨other, hin, heq⟩
        rw [received_room hremoved hretired hnew
          (hroom fun hin => hnew event hin rfl)]
        exact List.mem_append.mpr (Or.inl hitem)

/-- An event above the floor is buffered when it arrives. -/
theorem mem_received_new {p : Page} {event : Event}
    (hremoved : event.removed = false)
    (habove : ∀ watermark, p.floor = some watermark →
      watermark < event.blockNumber)
    (hsame : ∀ item ∈ p.events, item.identity = event.identity →
      item = event)
    (hroom : event ∉ p.events → p.events.length < DEDUPE_CAPACITY) :
    event ∈ received p.floor p.events event := by
  by_cases hknown : ∃ other ∈ p.events, other.identity = event.identity
  · rw [received_known hremoved hknown]
    obtain ⟨other, hin, heq⟩ := hknown
    rwa [← hsame other hin heq]
  · have hnew : ∀ other ∈ p.events, other.identity ≠ event.identity :=
      fun other hin heq => hknown ⟨other, hin, heq⟩
    rw [received_room hremoved (retired_eq_false.mpr habove) hnew
      (hroom fun hin => hnew event hin rfl)]
    exact List.mem_append.mpr (Or.inr (List.mem_singleton_self _))

/-- **RECEIVING** keeps the buffer complete above the floor. -/
theorem inv_receive {s : Session} (h : Inv tokenAddress s) {event : Event}
    (hcareful : Careful tokenAddress s (.receive event)) :
    Inv tokenAddress (s.step tokenAddress (.receive event)) := by
  cases hparse : parseRealtimeTrade tokenAddress event with
  | none =>
      have hsame : s.step tokenAddress (.receive event) = s := by
        simp [Session.step, Page.step, receive, hparse]
      rwa [hsame]
  | some parsed =>
      obtain ⟨rfl, htoken⟩ := parseRealtimeTrade_eq_some hparse
      have hstep : s.step tokenAddress (.receive parsed) =
          { page := { s.page with
              events := received s.page.floor s.page.events parsed }
            live := if parsed.removed then
                s.live.filter fun item => item.identity ≠ parsed.identity
              else s.live ++ [parsed] } := by
        simp [Session.step, Page.step, receive, hparse]
      rw [hstep]
      refine ⟨?_, ?_, h.token, h.trades, h.chart, h.reportedTrades,
        h.reportedChart⟩
      · intro item hitem
        rcases mem_of_mem_received hitem with hitem | rfl
        · exact h.owned item hitem
        · exact htoken
      · intro item hlive habove
        show item ∈ received s.page.floor s.page.events parsed
        cases hremoved : parsed.removed with
        | true =>
            simp only [hremoved, if_true] at hlive
            obtain ⟨hlive, hother⟩ := List.mem_filter.mp hlive
            exact mem_received_removed hremoved (h.kept item hlive habove)
              (by simpa using hother)
        | false =>
            obtain ⟨hsame, hroom⟩ := hcareful (by rw [hparse]; rfl) hremoved
            simp only [hremoved, Bool.false_eq_true, if_false] at hlive
            rcases List.mem_append.mp hlive with hlive | hnew
            · exact mem_received_old hremoved (h.kept item hlive habove) hroom
            · obtain rfl := List.mem_singleton.mp hnew
              exact mem_received_new hremoved habove hsame hroom

/-- **RETIRING** raises the floor to no more than any snapshot on show. -/
theorem inv_retire {s : Session} (h : Inv tokenAddress s) :
    Inv tokenAddress (s.step tokenAddress .retire) := by
  cases hblock : s.page.retireThroughBlock with
  | none =>
      have hsame : s.step tokenAddress .retire = s := by
        simp [Session.step, Page.step, Page.retire, hblock]
      rwa [hsame]
  | some block =>
      obtain ⟨watermark, hmax, hstep⟩ : ∃ watermark,
          ((s.page.floor = none ∧ watermark = block) ∨
            ∃ prior, s.page.floor = some prior ∧
              watermark = max prior block) ∧
          s.step tokenAddress .retire =
            { page := { s.page with
                floor := some watermark
                events := s.page.events.filter fun event =>
                  event.token ≠ tokenAddress ||
                    watermark < event.blockNumber }
              live := s.live } := by
        cases hfloor : s.page.floor with
        | none =>
            exact ⟨block, Or.inl ⟨rfl, rfl⟩, by
              simp [Session.step, Page.step, Page.retire, hblock, hfloor]⟩
        | some prior =>
            exact ⟨max prior block, Or.inr ⟨prior, rfl, rfl⟩, by
              simp [Session.step, Page.step, Page.retire, hblock, hfloor]⟩
      have hshown : ∀ n, s.page.Shows n → watermark ≤ n := by
        intro n hn
        have hle := retireThroughBlock_le h hblock hn
        rcases hmax with ⟨-, rfl⟩ | ⟨prior, hprior, rfl⟩
        · exact hle
        · exact max_le (floor_le h hprior hn) hle
      have hnot : ∀ shown : Option Nat, (∀ n, shown = some n →
          s.page.Shows n) → NotBefore (some watermark) shown := by
        intro shown hshows b hb n hn
        cases hb
        exact hshown n (hshows n hn)
      rw [hstep]
      refine ⟨?_, ?_, hnot _ fun n hn => Or.inl hn,
        hnot _ fun n hn => Or.inr (Or.inl hn),
        hnot _ fun n hn => Or.inr (Or.inr hn), h.reportedTrades,
        h.reportedChart⟩
      · intro event hevent
        exact h.owned event (List.mem_filter.mp hevent).1
      · intro event hlive habove
        have hlt : watermark < event.blockNumber := habove watermark rfl
        refine List.mem_filter.mpr ⟨h.kept event hlive ?_, by simp [hlt]⟩
        intro prior hprior
        rcases hmax with ⟨hnone, -⟩ | ⟨prior', hprior', rfl⟩
        · rw [hnone] at hprior
          cases hprior
        · rw [hprior] at hprior'
          cases hprior'
          exact lt_of_le_of_lt (le_max_left _ _) hlt

/-- The chart on show after a chart arrived or was collected. -/
theorem chart_update {p : Page} {timeframe : ChartInterval}
    {block : Option Nat} :
    Function.update p.charts timeframe block p.timeframe =
      if timeframe = p.timeframe then block else p.chart := by
  by_cases heq : timeframe = p.timeframe
  · subst heq
    simp
  · rw [Function.update_of_ne (Ne.symm heq), if_neg heq]
    rfl

/-- **EVERY CAREFUL ACTION** keeps the invariant. -/
theorem inv_step {s : Session} (h : Inv tokenAddress s) {a : Action}
    (hcareful : Careful tokenAddress s a) :
    Inv tokenAddress (s.step tokenAddress a) := by
  cases a with
  | receive event => exact inv_receive h hcareful
  | retire => exact inv_retire h
  | tokenSnapshot block =>
      exact ⟨h.owned, h.kept, hcareful, h.trades, h.chart, h.reportedTrades,
        h.reportedChart⟩
  | tradesSnapshot block =>
      exact ⟨h.owned, h.kept, h.token, hcareful.1, h.chart, hcareful.2,
        h.reportedChart⟩
  | chartSnapshot timeframe block =>
      have hshow : ∀ bound, (timeframe = s.page.timeframe →
          NotBefore bound block) → NotBefore bound s.page.chart →
          NotBefore bound
            (Function.update s.page.charts timeframe block
              s.page.timeframe) := by
        intro bound hnew hold
        rw [chart_update]
        split_ifs with heq
        · exact hnew heq
        · exact hold
      exact ⟨h.owned, h.kept, h.token, h.trades,
        hshow _ (fun heq => (hcareful heq).1) h.chart, h.reportedTrades,
        hshow _ (fun heq => (hcareful heq).2) h.reportedChart⟩
  | collectChart timeframe =>
      by_cases heq : timeframe = s.page.timeframe
      · have hsame : s.step tokenAddress (.collectChart timeframe) = s := by
          simp [Session.step, Page.step, heq]
        rwa [hsame]
      · have hchart : Function.update s.page.charts timeframe none
            s.page.timeframe = s.page.chart := by
          rw [chart_update, if_neg heq]
        have hstep : s.step tokenAddress (.collectChart timeframe) =
            { page := { s.page with
                charts := Function.update s.page.charts timeframe none }
              live := s.live } := by
          simp [Session.step, Page.step, heq]
        rw [hstep]
        refine ⟨h.owned, h.kept, h.token, h.trades, ?_, h.reportedTrades, ?_⟩
        · show NotBefore _ (Function.update s.page.charts timeframe none
            s.page.timeframe)
          rw [hchart]
          exact h.chart
        · show NotBefore _ (Function.update s.page.charts timeframe none
            s.page.timeframe)
          rw [hchart]
          exact h.reportedChart
  | switchTimeframe timeframe =>
      exact ⟨h.owned, h.kept, h.token, h.trades, hcareful, h.reportedTrades,
        fun b hb => by cases hb⟩
  | observeChart =>
      cases hshown : s.page.chart with
      | none =>
          have hsame : s.step tokenAddress .observeChart = s := by
            simp [Session.step, Page.step, Page.observe, hshown]
          rwa [hsame]
      | some block =>
          have hstep : s.step tokenAddress .observeChart =
              { page := { s.page with
                  watermarks := advanceRealtimeSurfaceWatermark
                    s.page.watermarks .chart (some block) }
                live := s.live } := by
            simp [Session.step, Page.step, Page.observe, hshown]
          rw [hstep]
          exact ⟨h.owned, h.kept, h.token, h.trades, h.chart,
            @notBefore_advance _ _ .trades _ _ h.reportedTrades
              (fun heq => by cases heq),
            @notBefore_advance _ _ .chart _ _ h.reportedChart
              (fun _ => hshown)⟩
  | observeTrades =>
      cases hshown : s.page.trades with
      | none =>
          have hsame : s.step tokenAddress .observeTrades = s := by
            simp [Session.step, Page.step, Page.observe, hshown]
          rwa [hsame]
      | some block =>
          have hstep : s.step tokenAddress .observeTrades =
              { page := { s.page with
                  watermarks := advanceRealtimeSurfaceWatermark
                    s.page.watermarks .trades (some block) }
                live := s.live } := by
            simp [Session.step, Page.step, Page.observe, hshown]
          rw [hstep]
          exact ⟨h.owned, h.kept, h.token, h.trades, h.chart,
            @notBefore_advance _ _ .trades _ _ h.reportedTrades
              (fun _ => hshown),
            @notBefore_advance _ _ .chart _ _ h.reportedChart
              (fun heq => by cases heq)⟩

/-- A page that was just opened. -/
theorem inv_open : Inv tokenAddress {} where
  owned := fun _ h => nomatch h
  kept := fun _ h => nomatch h
  token := notBefore_none _
  trades := notBefore_none _
  chart := notBefore_none _
  reportedTrades := notBefore_none _
  reportedChart := notBefore_none _

/-- **RETIREMENT IS SAFE IN A CAREFUL RUN**: at every moment the overlay has
    every live event that comes after a snapshot on show. -/
theorem overlay_complete (tokenAddress : Address) (actions : List Action)
    (h : RunLaw.Throughout (Session.step tokenAddress)
      (Careful tokenAddress) {} actions) :
    RunLaw.Always (Session.step tokenAddress) (Complete tokenAddress) {}
      actions := by
  have hinv : RunLaw.Always (Session.step tokenAddress) (Inv tokenAddress) {}
      actions :=
    @RunLaw.always_of_keeps _ _ (Session.step tokenAddress)
      (Careful tokenAddress) (Inv tokenAddress)
      (fun _ _ hinv hcareful => inv_step hinv hcareful) _ _ inv_open h
  exact RunLaw.Always.imp (Session.step tokenAddress)
    (fun _ hs => hs.complete) hinv

/-! ## Both conditions are needed -/

/-- The buffer has nothing at or below its floor. -/
def AboveFloor (s : Session) : Prop :=
  ∀ event ∈ s.page.events, ∀ floor, s.page.floor = some floor →
    event.token = tokenAddress → floor < event.blockNumber

theorem aboveFloor_step {s : Session} (h : @AboveFloor tokenAddress s)
    (a : Action) : @AboveFloor tokenAddress (s.step tokenAddress a) := by
  cases a with
  | receive event =>
      cases hparse : parseRealtimeTrade tokenAddress event with
      | none =>
          have hsame : s.step tokenAddress (.receive event) = s := by
            simp [Session.step, Page.step, receive, hparse]
          rwa [hsame]
      | some parsed =>
          obtain ⟨rfl, -⟩ := parseRealtimeTrade_eq_some hparse
          have hpage : (s.step tokenAddress (.receive parsed)).page =
              { s.page with
                events := received s.page.floor s.page.events parsed } := by
            simp [Session.step, Page.step, receive, hparse]
          intro item hitem floor hfloor hitoken
          rw [hpage] at hitem hfloor
          rcases mem_of_mem_received hitem with hold | rfl
          · exact h item hold floor hfloor hitoken
          · by_contra hle
            have hold : item ∈ s.page.events := by
              cases hremoved : item.removed with
              | true =>
                  rw [received_removed hremoved] at hitem
                  exact List.mem_of_mem_filter hitem
              | false =>
                  have hretired : retired s.page.floor item.blockNumber
                      = true := by
                    rw [show s.page.floor = some floor from hfloor]
                    exact decide_eq_true (Nat.le_of_not_lt hle)
                  rwa [received_retired hremoved hretired] at hitem
            exact hle (h item hold floor hfloor hitoken)
  | retire =>
      cases hblock : s.page.retireThroughBlock with
      | none =>
          have hsame : s.step tokenAddress .retire = s := by
            simp [Session.step, Page.step, Page.retire, hblock]
          rwa [hsame]
      | some block =>
          intro event hevent floor hfloor htoken
          simp only [Session.step, Page.step, Page.retire, hblock]
            at hevent hfloor
          have hfilter := (List.mem_filter.mp hevent).2
          rw [Option.some.inj hfloor] at hfilter
          simpa [htoken] using hfilter
  | collectChart timeframe =>
      intro event hevent floor hfloor
      simp only [Session.step, Page.step] at hevent hfloor
      split_ifs at hevent hfloor <;> exact h event hevent floor hfloor
  | observeChart =>
      intro event hevent floor hfloor
      cases hshown : s.page.chart <;>
        simp only [Session.step, Page.step, Page.observe, hshown]
          at hevent hfloor <;>
        exact h event hevent floor hfloor
  | observeTrades =>
      intro event hevent floor hfloor
      cases hshown : s.page.trades <;>
        simp only [Session.step, Page.step, Page.observe, hshown]
          at hevent hfloor <;>
        exact h event hevent floor hfloor
  | tokenSnapshot block => exact h
  | tradesSnapshot block => exact h
  | chartSnapshot timeframe block => exact h
  | switchTimeframe timeframe => exact h

/-- **A SNAPSHOT OLDER THAN THE FLOOR IS A GAP**: in every run, once one is on
    show, each live event of the token between the two is missing. -/
theorem below_floor_missing (tokenAddress : Address) (actions : List Action) :
    RunLaw.Always (Session.step tokenAddress)
      (fun s => ∀ event ∈ s.live, event.token = tokenAddress →
        ∀ floor shown, s.page.floor = some floor → s.page.Shows shown →
          shown < event.blockNumber → event.blockNumber ≤ floor →
            ¬ Complete tokenAddress s) {} actions := by
  have habove : RunLaw.Always (Session.step tokenAddress)
      (@AboveFloor tokenAddress) {} actions :=
    @RunLaw.always_of_keeps _ _ (Session.step tokenAddress)
      (fun _ _ => True) (@AboveFloor tokenAddress)
      (fun _ a h _ => aboveFloor_step h a) _ _ (fun _ h => nomatch h)
      (RunLaw.throughout_true (Session.step tokenAddress) {} actions)
  refine RunLaw.Always.imp (Session.step tokenAddress) ?_ habove
  intro s h event hlive htoken floor shown hfloor hshows hlater hle hcomplete
  have hin := hcomplete event hlive shown hshows hlater
  have hlt := h event (List.mem_filter.mp hin).1 floor hfloor htoken
  omega

/-- **A FULL BUFFER FORGETS ITS OLDEST EVENT** when a new one arrives. -/
theorem full_buffer_forgets {p : Page} {event oldest : Event}
    {rest : List Event} (hevents : p.events = oldest :: rest)
    (hfull : p.events.length = DEDUPE_CAPACITY)
    (hnew : ∀ item ∈ p.events, item.identity ≠ event.identity)
    (hremoved : event.removed = false)
    (habove : ∀ watermark, p.floor = some watermark →
      watermark < event.blockNumber) :
    received p.floor p.events event = rest ++ [event] := by
  rw [hevents] at hfull hnew ⊢
  rw [received_full hremoved (retired_eq_false.mpr habove) hnew hfull.ge]
  refine rtake_of_length_le ?_
  rw [List.length_append, ← hfull]
  rfl

/-! ## Going back to a timeframe -/

/-- A buy of block 15. -/
def earlyBuy : Event where
  identity := ⟨ChainID, 77, 0⟩
  token := 1
  market := 2
  source := .curve
  side := .buy
  blockNumber := 15
  blockTimestamp := some 1500
  transactionHash := 77
  logIndex := 0
  removed := false
  tokenAmountRaw := 10 ^ 18
  usdcAmountRaw := 10 ^ 15
  usdcDecimals := 18

/-- A page settles: its surfaces report, and the buffer retires. -/
def settle : List Action := [.observeChart, .observeTrades, .retire]

/-- Every surface shows block 10; the reader goes to another timeframe, where
    every surface reaches block 20, and comes back. -/
def backAndForth : List Action :=
  [.tokenSnapshot (some 10), .tradesSnapshot (some 10),
    .chartSnapshot .m5 (some 10)] ++ settle ++
  [.switchTimeframe .h1, .receive earlyBuy, .chartSnapshot .h1 (some 20),
    .tokenSnapshot (some 20), .tradesSnapshot (some 20)] ++ settle ++
  [.switchTimeframe .m5] ++ settle

/-- The buy of block 15 is live, the chart on show is that of block 10, and
    the overlay is empty. -/
theorem cached_chart_gap :
    (backAndForth.foldl (Session.step 1) {}).live = [earlyBuy] ∧
    (backAndForth.foldl (Session.step 1) {}).page.chart = some 10 ∧
    (backAndForth.foldl (Session.step 1) {}).page.overlay 1 = [] := by
  decide +kernel

/-- **THE OVERLAY IS NOT ALWAYS COMPLETE**. -/
theorem backAndForth_incomplete :
    ¬ RunLaw.Always (Session.step 1) (Complete 1) {} backAndForth := by
  intro h
  obtain ⟨hlive, hchart, hoverlay⟩ := cached_chart_gap
  have hlast := (RunLaw.always_iff_prefix (Session.step 1) (Complete 1) {}
    backAndForth).mp h backAndForth [] (List.append_nil _).symm
  have hin := hlast earlyBuy (by rw [hlive]; exact List.mem_singleton.mpr rfl)
    10 (Or.inr (Or.inr hchart)) (by decide)
  rw [hoverlay] at hin
  cases hin

/-- A page whose surfaces show block 10 when it receives the buy, and block 20
    later. -/
def staying : List Action :=
  [.tokenSnapshot (some 10), .receive earlyBuy, .tradesSnapshot (some 10),
    .chartSnapshot .m5 (some 10), .observeChart, .observeTrades, .retire,
    .chartSnapshot .m5 (some 20)]

theorem overlay_complete_staying :
    RunLaw.Always (Session.step 1) (Complete 1) {} staying := by
  refine overlay_complete 1 staying ?_
  have hnone : ∀ block, NotBefore none block := fun _ _ h => nomatch h
  refine ⟨hnone _, fun _ _ => ⟨fun _ h => (nomatch h), fun _ => by decide⟩,
    ⟨hnone _, hnone _⟩, fun _ => ⟨hnone _, hnone _⟩, trivial, trivial,
    trivial, ?_, trivial⟩
  intro _
  constructor
  · rintro b ⟨⟩ n ⟨⟩
    decide
  · rintro b ⟨⟩ n ⟨⟩
    decide

end Retirement
