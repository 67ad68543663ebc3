import BucketReef.Caches.Listings

/-!
# Invalidation is a barrier

A stored value rests on loads later than every invalidation of its group, and a marker is of a call
registered later than all of them, so a call that starts after an invalidation returns a value loaded
after it.
-/

namespace BucketReef
namespace Listings

open Caches Transitions

variable {Key Group V P : Type}

/-! ## What a phase carries -/

namespace Outer

/-- A call that has not looked the key up, or waits for another. -/
def pending : Outer Key V → Option (Key × ℕ)
  | .called key startedAt | .waiting key startedAt _ => some (key, startedAt)
  | _ => none

/-- The registration of a call that is still running. -/
def active : Outer Key V → Option (Ownership Key)
  | .registered own | .building own _ | .built own _ | .stored own _ | .failed own
  | .resolved own _ => some own
  | _ => none

/-- The future of a call, also after its end. -/
def future : Outer Key V → Option (Ownership Key)
  | .finished future => future.map Prod.fst
  | outer => outer.active

/-- The start of the oldest load its value rests on. -/
def stamp : Outer Key V → Option ℕ
  | .building _ oldest => some oldest
  | .built _ loaded | .stored _ loaded => some loaded.oldest
  | .resolved _ outcome => outcome.map Loaded.oldest
  | .finished future => future.bind fun pair => pair.2.map Loaded.oldest
  | _ => none

end Outer

namespace Inner

def read : Inner Group P → Option (Read Group)
  | .idle => none
  | .reading read | .waiting read _ => some read
  | .registered load | .loading load _ | .loaded load .. | .finishing load _
  | .setting load _ => some load.read

/-- The load whose event is not set yet. -/
def load : Inner Group P → Option (Load Group)
  | .registered load | .loading load _ | .loaded load .. | .finishing load _
  | .setting load _ => some load
  | _ => none

/-- The load that may still have its marker. -/
def marks : Inner Group P → Option (Load Group)
  | .setting _ _ => none
  | inner => inner.load

def stamp : Inner Group P → Option ℕ
  | .loading _ loaderStartedAt => some loaderStartedAt
  | Inner.loaded _ value _ => some value.oldest
  | .finishing _ outcome | .setting _ outcome => outcome.map Loaded.oldest
  | _ => none

end Inner

/-! ## The invariant -/

variable [DecidableEq Group]

namespace State

def active (s : State Key Group V P) (p : ℕ) : Option (Key × ℕ) :=
  (s.calls p).outer.active.map fun own => (own.key, own.registeredAt)

def activeLoad (s : State Key Group V P) (event : EventId) : Option (Group × ℕ) :=
  (s.calls event.1).inner.marks.bind fun load =>
    if load.event = event then some (load.read.endpoint, load.registeredAt) else none

/-- The event is set, or a load that will set it is running. -/
def Settles (s : State Key Group V P) (event : EventId) : Prop :=
  s.eventSet event = true ∨ ∃ load, (s.calls event.1).inner.load = some load ∧ load.event = event

end State

variable (settings : Settings Key Group)

structure OuterSound (s : State Key Group V P) (outer : Outer Key V) : Prop where
  pending : ∀ key t, outer.pending = some (key, t) → t < s.time
  /-- The awaited future was registered after the invalidations before the call. -/
  waits : ∀ key t f, outer = .waiting key t f → ∃ own, (s.calls f).outer.future = some own ∧
    own.key = key ∧ Since s.invalidations (settings.group key) t own.registeredAt
  owns : ∀ own, outer.future = some own →
    own.startedAt ≤ own.registeredAt ∧ own.registeredAt < s.time
  stamp : ∀ own t, outer.future = some own → outer.stamp = some t →
    Since s.invalidations (settings.group own.key) own.registeredAt t

structure InnerSound (s : State Key Group V P) (p : ℕ) (call : Call Key Group V P) : Prop where
  reads : ∀ read, call.inner.read = some read → read.startedAt < s.time
  /-- A builder reads payloads of its own endpoint, after it was registered. -/
  nested : ∀ read own oldest, call.inner.read = some read → call.outer = .building own oldest →
    own.registeredAt ≤ read.startedAt ∧ settings.group own.key = read.endpoint
  loads : ∀ load, call.inner.load = some load → load.read.startedAt ≤ load.registeredAt ∧
    load.registeredAt < s.time ∧ load.event.1 = p ∧ load.event.2 < call.loads ∧
      s.eventSet load.event = false
  loadStamp : ∀ load t, call.inner.load = some load → call.inner.stamp = some t →
    Since s.invalidations load.read.endpoint load.registeredAt t
  waits : ∀ read event, call.inner = .waiting read event → s.Settles event
  unset : ∀ n, call.loads ≤ n → s.eventSet (p, n) = false

structure Inv (s : State Key Group V P) : Prop where
  times : ∀ i ∈ s.invalidations, i.time < s.time
  cached : ∀ pair ∈ s.cache, Fresh s.invalidations (settings.group pair.1) pair.2.value.oldest
  payloadCached : ∀ pair ∈ s.payloadCache, Fresh s.invalidations pair.1.1 pair.2.value.oldest
  listings : ∀ r ∈ s.listings, r.startedAt < s.time ∧
    Since s.invalidations (settings.group r.key) r.startedAt r.loaded.oldest
  payloads : ∀ r ∈ s.payloads, r.startedAt < s.time ∧
    Since s.invalidations r.key r.startedAt r.loaded.oldest
  markers : Markers s.invalidations settings.group s.inflight s.active
  payloadMarkers : Markers s.invalidations id s.payloadInflight s.activeLoad
  outer : ∀ p, OuterSound settings s (s.calls p).outer
  inner : ∀ p, InnerSound settings s p (s.calls p)

theorem init_inv (clock : ℕ) : Inv settings (State.init clock : State Key Group V P) where
  times := by simp [State.init]
  cached := by simp [State.init]
  payloadCached := by simp [State.init]
  listings := by simp [State.init]
  payloads := by simp [State.init]
  markers := by
    constructor <;> simp [State.init, State.active, Outer.active]
  payloadMarkers := by
    constructor <;> simp [State.init, State.activeLoad, Inner.marks, Inner.load]
  outer p := by
    constructor <;> simp [State.init, Outer.pending, Outer.future, Outer.active]
  inner p := by
    constructor <;> simp [State.init, Inner.read, Inner.load]

/-! ## Frames -/

variable {settings} {s s' : State Key Group V P}

omit [DecidableEq Group] in
/-- Time moves on, futures stay. -/
theorem OuterSound.frame {u : State Key Group V P} {outer : Outer Key V} (h : OuterSound settings s outer)
    (htime : s.time ≤ u.time) (hinvs : u.invalidations = s.invalidations)
    (hfuture : ∀ f own, (s.calls f).outer.future = some own → (u.calls f).outer.future = some own) :
    OuterSound settings u outer where
  pending key t hpending := Nat.lt_of_lt_of_le (h.pending key t hpending) htime
  waits key t f hwaits := by
    obtain ⟨own, hown, hkey, hsince⟩ := h.waits key t f hwaits
    rw [hinvs]
    exact ⟨own, hfuture f own hown, hkey, hsince⟩
  owns own hown := (h.owns own hown).imp_right fun hlt => Nat.lt_of_lt_of_le hlt htime
  stamp := by
    rw [hinvs]
    exact h.stamp

omit [DecidableEq Group] in
theorem InnerSound.frame {u : State Key Group V P} {p : ℕ} {call : Call Key Group V P} (h : InnerSound settings s p call)
    (htime : s.time ≤ u.time) (hinvs : u.invalidations = s.invalidations)
    (hsettles : ∀ event, s.Settles event → u.Settles event)
    (hset : ∀ n, u.eventSet (p, n) = s.eventSet (p, n)) : InnerSound settings u p call where
  reads read hread := Nat.lt_of_lt_of_le (h.reads read hread) htime
  nested := h.nested
  loads load hload := by
    obtain ⟨hle, hlt, hfst, hsnd, hunset⟩ := h.loads load hload
    have hevent : load.event = (p, load.event.2) := Prod.ext hfst rfl
    refine ⟨hle, Nat.lt_of_lt_of_le hlt htime, hfst, hsnd, ?_⟩
    calc u.eventSet load.event = u.eventSet (p, load.event.2) := congrArg _ hevent
      _ = s.eventSet (p, load.event.2) := hset _
      _ = s.eventSet load.event := (congrArg _ hevent).symm
      _ = false := hunset
  loadStamp := by
    rw [hinvs]
    exact h.loadStamp
  waits read event hwaits := hsettles event (h.waits read event hwaits)
  unset n hn := (hset n).trans (h.unset n hn)

/-- The state after a step: time has moved on. -/
def State.next (s : State Key Group V P) : State Key Group V P := { s with time := s.time + 1 }

def State.setCall (s : State Key Group V P) (p : ℕ) (call : Call Key Group V P) :
    State Key Group V P :=
  { s with calls := Function.update s.calls p call }

theorem times_next (h : ∀ i ∈ s.invalidations, i.time < s.time) (htime : s'.time = s.time + 1)
    (hinvs : s'.invalidations = s.invalidations) : ∀ i ∈ s'.invalidations, i.time < s'.time := by
  intro i hi
  rw [hinvs] at hi
  have := h i hi
  omega

/-- A call goes on, outside a read of payloads. -/
theorem Inv.moveOuter (h : Inv settings s) {p : ℕ} (outer : Outer Key V)
    (hcalls : s'.calls = Function.update s.calls p { s.calls p with outer := outer })
    (htime : s'.time = s.time + 1) (hinvs : s'.invalidations = s.invalidations)
    (hset : s'.eventSet = s.eventSet) (hpayloadCache : s'.payloadCache = s.payloadCache)
    (hpayloadInflight : s'.payloadInflight = s.payloadInflight)
    (hpayloads : s'.payloads = s.payloads)
    (hcached : ∀ pair ∈ s'.cache, pair ∈ s.cache ∨
      Fresh s.invalidations (settings.group pair.1) pair.2.value.oldest)
    (hlistings : ∀ r ∈ s'.listings, r ∈ s.listings ∨ (r.startedAt < s.time ∧
      Since s.invalidations (settings.group r.key) r.startedAt r.loaded.oldest))
    (hmarkers : Markers s.invalidations settings.group s'.inflight
      (Function.update s.active p (outer.active.map fun own => (own.key, own.registeredAt))))
    (hidle : ∀ own oldest, outer = .building own oldest → (s.calls p).inner = .idle)
    (hfuture : ∀ own, (s.calls p).outer.future = some own → outer.future = some own)
    (hsound : OuterSound settings s.next outer) : Inv settings s' := by
  have hfutures : ∀ f own, (s.calls f).outer.future = some own →
      (s'.calls f).outer.future = some own := by
    intro f own hown
    rw [hcalls]
    by_cases hf : f = p
    · subst hf
      rw [Function.update_self]
      exact hfuture own hown
    · rw [Function.update_of_ne hf]
      exact hown
  have hinner : ∀ q, (s'.calls q).inner = (s.calls q).inner := by
    intro q
    rw [hcalls]
    by_cases hq : q = p
    · rw [hq, Function.update_self]
    · rw [Function.update_of_ne hq]
  have hsettles : ∀ event, s.Settles event → s'.Settles event := by
    intro event
    unfold State.Settles
    rw [hset, hinner]
    exact id
  refine ⟨times_next h.times htime hinvs, ?_, ?_, ?_, ?_, ?_, ?_, ?_, ?_⟩
  · intro pair hpair
    rw [hinvs]
    exact (hcached pair hpair).elim (h.cached pair) id
  · rw [hinvs, hpayloadCache]
    exact h.payloadCached
  · intro r hr
    rw [hinvs]
    exact ((hlistings r hr).elim (h.listings r) id).imp_left fun hlt => by omega
  · intro r hr
    rw [hpayloads] at hr
    rw [hinvs]
    exact (h.payloads r hr).imp_left fun hlt => by omega
  · have hactive : s'.active =
        Function.update s.active p (outer.active.map fun own => (own.key, own.registeredAt)) := by
      funext q
      unfold State.active
      rw [hcalls]
      by_cases hq : q = p
      · rw [hq, Function.update_self, Function.update_self]
      · rw [Function.update_of_ne hq, Function.update_of_ne hq]
    rw [hinvs, hactive]
    exact hmarkers
  · have hactive : s'.activeLoad = s.activeLoad := by
      funext event
      unfold State.activeLoad
      rw [hinner]
    rw [hinvs, hpayloadInflight, hactive]
    exact h.payloadMarkers
  · intro q
    by_cases hq : q = p
    · rw [hq, hcalls, Function.update_self]
      refine hsound.frame (Nat.le_of_eq htime.symm) hinvs hfutures
    · rw [hcalls, Function.update_of_ne hq]
      exact (h.outer q).frame (by omega) hinvs hfutures
  · intro q
    have hframe := (h.inner q).frame (u := s') (by omega) hinvs hsettles (fun n => by rw [hset])
    by_cases hq : q = p
    · subst hq
      rw [hcalls, Function.update_self]
      refine ⟨hframe.reads, ?_, hframe.loads, hframe.loadStamp, hframe.waits, hframe.unset⟩
      intro read own oldest hread houter
      change (s.calls q).inner.read = some read at hread
      rw [hidle own oldest houter] at hread
      cases hread
    · rw [hcalls, Function.update_of_ne hq]
      exact hframe

/-- A read of payloads goes on; its caller may come to rest on an older load. -/
theorem Inv.moveInner (h : Inv settings s) {p : ℕ} (outer : Outer Key V)
    (inner : Inner Group P) (loads : ℕ)
    (hcalls : s'.calls = Function.update s.calls p ⟨outer, inner, loads⟩)
    (htime : s'.time = s.time + 1) (hinvs : s'.invalidations = s.invalidations)
    (hcache : s'.cache = s.cache) (hinflight : s'.inflight = s.inflight)
    (hlistings : s'.listings = s.listings)
    (hset : ∀ event, event.1 ≠ p → s'.eventSet event = s.eventSet event)
    (hcached : ∀ pair ∈ s'.payloadCache, pair ∈ s.payloadCache ∨
      Fresh s.invalidations pair.1.1 pair.2.value.oldest)
    (hpayloads : ∀ r ∈ s'.payloads, r ∈ s.payloads ∨ (r.startedAt < s.time ∧
      Since s.invalidations r.key r.startedAt r.loaded.oldest))
    (hmarkers : Markers s.invalidations id s'.payloadInflight s'.activeLoad)
    (hactive : outer.active = (s.calls p).outer.active)
    (hfuture : outer.future = (s.calls p).outer.future)
    (hsettles : ∀ event, event.1 = p → s.Settles event → s'.Settles event)
    (houter : OuterSound settings s.next outer)
    (hinner : InnerSound settings s' p ⟨outer, inner, loads⟩) : Inv settings s' := by
  have hfutures : ∀ f own, (s.calls f).outer.future = some own →
      (s'.calls f).outer.future = some own := by
    intro f own hown
    rw [hcalls]
    by_cases hf : f = p
    · rw [hf] at hown
      rw [hf, Function.update_self]
      exact hfuture.trans hown
    · rw [Function.update_of_ne hf]
      exact hown
  have hsettles' : ∀ event, s.Settles event → s'.Settles event := by
    intro event hevent
    by_cases hp : event.1 = p
    · exact hsettles event hp hevent
    · unfold State.Settles
      rw [hset event hp, hcalls, Function.update_of_ne hp]
      exact hevent
  refine ⟨times_next h.times htime hinvs, ?_, ?_, ?_, ?_, ?_, ?_, ?_, ?_⟩
  · rw [hinvs, hcache]
    exact h.cached
  · intro pair hpair
    rw [hinvs]
    exact (hcached pair hpair).elim (h.payloadCached pair) id
  · intro r hr
    rw [hlistings] at hr
    rw [hinvs]
    exact (h.listings r hr).imp_left fun hlt => by omega
  · intro r hr
    rw [hinvs]
    exact ((hpayloads r hr).elim (h.payloads r) id).imp_left fun hlt => by omega
  · have hsame : s'.active = s.active := by
      funext q
      unfold State.active
      rw [hcalls]
      by_cases hq : q = p
      · rw [hq, Function.update_self, hactive]
      · rw [Function.update_of_ne hq]
    rw [hinvs, hinflight, hsame]
    exact h.markers
  · rw [hinvs]
    exact hmarkers
  · intro q
    rw [hcalls]
    by_cases hq : q = p
    · rw [hq, Function.update_self]
      exact houter.frame (Nat.le_of_eq htime.symm) hinvs hfutures
    · rw [Function.update_of_ne hq]
      exact (h.outer q).frame (by omega) hinvs hfutures
  · intro q
    rw [hcalls]
    by_cases hq : q = p
    · rw [hq, Function.update_self]
      exact hinner
    · rw [Function.update_of_ne hq]
      exact (h.inner q).frame (by omega) hinvs hsettles' fun n => hset (q, n) hq

/-! ## Steps of a listing call -/

theorem Inv.setOuter (h : Inv settings s) {p : ℕ} {outer : Outer Key V}
    (hactive : outer.active = (s.calls p).outer.active)
    (hidle : ∀ own oldest, outer = .building own oldest → (s.calls p).inner = .idle)
    (hfuture : ∀ own, (s.calls p).outer.future = some own → outer.future = some own)
    (hsound : OuterSound settings s.next outer) : Inv settings (s.setOuter p outer).next := by
  refine h.moveOuter _ rfl rfl rfl rfl rfl rfl rfl (fun _ => .inl) (fun _ => .inl) ?_ hidle hfuture
    hsound
  have hsame : Function.update s.active p (outer.active.map fun own => (own.key, own.registeredAt)) =
      s.active := by
    rw [hactive]
    exact Function.update_eq_self p s.active
  rw [hsame]
  exact h.markers

omit [DecidableEq Group] in
/-- What an owner keeps when it goes on with the same value or none. -/
theorem OuterSound.owner {outer outer' : Outer Key V} (h : OuterSound settings s outer)
    {own : Ownership Key} (hown : outer.future = some own) (hfuture : outer'.future = some own)
    (hpending : outer'.pending = none) (hwaits : ∀ key t f, outer' ≠ .waiting key t f)
    (hstamp : ∀ t, outer'.stamp = some t →
      Since s.invalidations (settings.group own.key) own.registeredAt t) :
    OuterSound settings s.next outer' where
  pending key t ht := by
    rw [hpending] at ht
    cases ht
  waits key t f hf := absurd hf (hwaits key t f)
  owns own' hown' := by
    rw [hfuture] at hown'
    cases hown'
    exact (h.owns own hown).imp_right Nat.lt_succ_of_lt
  stamp own' t hown' ht := by
    rw [hfuture] at hown'
    cases hown'
    exact hstamp t ht

omit [DecidableEq Group] in
/-- A call without a future, and not waiting for one. -/
theorem OuterSound.plain {outer : Outer Key V} (hfuture : outer.future = none)
    (hpending : ∀ key t, outer.pending = some (key, t) → t < s.time)
    (hwaits : ∀ key t f, outer ≠ .waiting key t f) : OuterSound settings s outer where
  pending := hpending
  waits key t f hf := absurd hf (hwaits key t f)
  owns own hown := by
    rw [hfuture] at hown
    cases hown
  stamp own t hown := by
    rw [hfuture] at hown
    cases hown

/-- A call that ends without a future of its own, with the value it returned. -/
theorem returnListing_inv (h : Inv settings s) {p : ℕ} {key : Key} {startedAt : ℕ}
    {loaded : Loaded V} (hactive : (s.calls p).outer.active = none)
    (hfuture : (s.calls p).outer.future = none) (hstarted : startedAt < s.time)
    (hsince : Since s.invalidations (settings.group key) startedAt loaded.oldest) :
    Inv settings (returnListing s p key startedAt loaded none).next := by
  refine h.moveOuter (.finished none) rfl rfl rfl rfl rfl rfl rfl (fun _ => .inl) ?_ ?_ ?_ ?_ ?_
  · intro r hr
    refine (List.mem_append.mp hr).imp_right ?_
    intro hr
    rw [List.mem_singleton.mp hr]
    exact ⟨hstarted, hsince⟩
  · have hsame : Function.update s.active p
        ((Outer.finished none : Outer Key V).active.map fun own => (own.key, own.registeredAt)) =
          s.active := by
      rw [show (Outer.finished none : Outer Key V).active = (s.calls p).outer.active from hactive.symm]
      exact Function.update_eq_self p s.active
    rw [hsame]
    exact h.markers
  · intro own oldest hbuilding
    cases hbuilding
  · intro own hown
    rw [hfuture] at hown
    cases hown
  · exact .plain rfl (fun _ _ hpending => by cases hpending) (by intros; simp)

variable [DecidableEq Key]

/-- Pruning a table, or moving an entry, keeps the invariant. -/
theorem Inv.withCache (h : Inv settings s) {cache : LruTable Key (Loaded V)}
    (hmem : ∀ pair ∈ cache, pair ∈ s.cache) : Inv settings { s with cache := cache } where
  times := h.times
  cached pair hpair := h.cached pair (hmem pair hpair)
  payloadCached := h.payloadCached
  listings := h.listings
  payloads := h.payloads
  markers := h.markers
  payloadMarkers := h.payloadMarkers
  outer p := (h.outer p).frame (u := { s with cache := cache }) (Nat.le_refl _) rfl fun _ _ => id
  inner p := (h.inner p).frame (u := { s with cache := cache }) (Nat.le_refl _) rfl
    (fun _ => id) fun _ => rfl

theorem lookup_inv (h : Inv settings s) {p : ℕ} {key : Key} {startedAt : ℕ}
    (hphase : (s.calls p).outer = .called key startedAt) :
    Inv settings (lookup settings s p key startedAt).next := by
  have hprune : ∀ pair ∈ s.cache.prune s.clock settings.maxEntries, pair ∈ s.cache :=
    fun _ => LruTable.mem_of_prune
  have hstarted : startedAt < s.time :=
    (h.outer p).pending key startedAt (by rw [hphase]; rfl)
  simp only [lookup]
  split
  · rename_i cached hget
    have hmem := hprune _ (LruTable.mem_of_get hget)
    refine returnListing_inv (h.withCache ?_) ?_ ?_ hstarted (h.cached _ hmem).since
    · intro pair hpair
      exact hprune pair (LruTable.mem_moveToEnd.mp hpair)
    · show (s.calls p).outer.active = none
      rw [hphase]
      rfl
    · show (s.calls p).outer.future = none
      rw [hphase]
      rfl
  · split
    · rename_i future hmark
      obtain ⟨t, hactive, hfresh⟩ := h.markers.marked key future hmark
      obtain ⟨own, hown, hpair⟩ := Option.map_eq_some_iff.mp hactive
      cases hpair
      have hfuture : (s.calls future).outer.future = some own := by
        cases houter : (s.calls future).outer <;> rw [houter] at hown <;>
          first | exact hown | cases hown
      refine (h.withCache hprune).setOuter ?_ ?_ ?_ ?_
      · show none = (s.calls p).outer.active
        rw [hphase]
        rfl
      · intro own oldest hbuilding
        cases hbuilding
      · intro own' hown'
        change (s.calls p).outer.future = some own' at hown'
        rw [hphase] at hown'
        cases hown'
      · refine ⟨?_, ?_, ?_, ?_⟩
        · rintro key' t' ⟨⟩
          exact Nat.lt_succ_of_lt hstarted
        · rintro key' t' f ⟨⟩
          exact ⟨own, hfuture, rfl, hfresh.since⟩
        · intro own' hown'
          cases hown'
        · intro own' t' hown'
          cases hown'
    · rename_i hfree
      refine h.moveOuter (.registered ⟨key, startedAt, s.time⟩) rfl rfl rfl rfl rfl rfl rfl
        (fun pair hpair => .inl (hprune pair hpair)) (fun _ => .inl) ?_ ?_ ?_ ?_
      · refine h.markers.register hfree ?_ h.times
        unfold State.active
        rw [hphase]
        rfl
      · intro own oldest hbuilding
        cases hbuilding
      · intro own hown
        rw [hphase] at hown
        cases hown
      · refine ⟨?_, ?_, ?_, ?_⟩
        · intro key' t' hpending
          cases hpending
        · intro key' t' f hwaiting
          cases hwaiting
        · rintro own ⟨⟩
          exact ⟨Nat.le_of_lt hstarted, Nat.lt_succ_self _⟩
        · intro own t _ ht
          cases ht

omit [DecidableEq Key] in
theorem waitingReturn_inv (h : Inv settings s) {p f : ℕ} {key : Key} {startedAt : ℕ}
    {loaded : Loaded V} (hphase : (s.calls p).outer = .waiting key startedAt f)
    (houtcome : (s.calls f).outer.outcome = some (some loaded)) :
    Inv settings (returnListing s p key startedAt loaded none).next := by
  obtain ⟨own, hown, rfl, hsince⟩ := (h.outer p).waits key startedAt f hphase
  have hstamp : (s.calls f).outer.stamp = some loaded.oldest := by
    cases houter : (s.calls f).outer with
    | resolved own' outcome =>
      rw [houter] at houtcome
      cases houtcome
      rfl
    | finished future =>
      rw [houter] at houtcome
      cases future with
      | none => cases houtcome
      | some pair =>
        obtain ⟨own', outcome⟩ := pair
        cases houtcome
        rfl
    | unused => rw [houter] at houtcome; cases houtcome
    | direct => rw [houter] at houtcome; cases houtcome
    | called => rw [houter] at houtcome; cases houtcome
    | waiting => rw [houter] at houtcome; cases houtcome
    | registered => rw [houter] at houtcome; cases houtcome
    | building => rw [houter] at houtcome; cases houtcome
    | built => rw [houter] at houtcome; cases houtcome
    | stored => rw [houter] at houtcome; cases houtcome
    | failed => rw [houter] at houtcome; cases houtcome
  have hstarted : startedAt < s.time := (h.outer p).pending _ startedAt (by rw [hphase]; rfl)
  refine returnListing_inv h ?_ ?_ hstarted (hsince.trans ((h.outer f).stamp own _ hown hstamp))
  · rw [hphase]
    rfl
  · rw [hphase]
    rfl

theorem storeListing_inv (h : Inv settings s) {p : ℕ} {own : Ownership Key} {loaded : Loaded V}
    (hphase : (s.calls p).outer = .built own loaded) :
    Inv settings (storeListing settings s p own loaded).next := by
  have hown : (s.calls p).outer.future = some own := by rw [hphase]; rfl
  have hsince : Since s.invalidations (settings.group own.key) own.registeredAt loaded.oldest :=
    (h.outer p).stamp own loaded.oldest hown (by rw [hphase]; rfl)
  have hsound : OuterSound settings s.next (.stored own loaded) := by
    refine (h.outer p).owner hown rfl rfl (by intros; simp) ?_
    rintro t ⟨⟩
    exact hsince
  have hactive : (Outer.stored own loaded).active = (s.calls p).outer.active := by
    rw [hphase]
    rfl
  have hfuture : ∀ own', (s.calls p).outer.future = some own' →
      (Outer.stored own loaded).future = some own' := by
    intro own' hown'
    rwa [hown] at hown'
  simp only [storeListing]
  split
  · rename_i hmark
    refine h.moveOuter (.stored own loaded) rfl rfl rfl rfl rfl rfl rfl ?_ (fun _ => .inl)
      ?_ (fun _ _ hbuilding => by cases hbuilding) hfuture hsound
    · -- the marker is still there: no invalidation came since the registration
      intro pair hpair
      rcases LruTable.mem_store.mp (LruTable.mem_of_prune hpair) with ⟨hold, _⟩ | rfl
      · exact .inl hold
      · obtain ⟨t, ht, hfresh⟩ := h.markers.marked own.key p hmark
        unfold State.active at ht
        rw [hphase] at ht
        cases ht
        exact .inr (hfresh.trans hsince)
    · rw [hactive]
      have hsame := Function.update_eq_self p s.active
      unfold State.active at hsame ⊢
      rw [hsame]
      exact h.markers
  · exact h.setOuter hactive (fun _ _ hbuilding => by cases hbuilding) hfuture hsound

theorem finishListing_inv (h : Inv settings s) {p : ℕ} {own : Ownership Key}
    {outcome : Option (Loaded V)} (hphase : (s.calls p).outer = .resolved own outcome) :
    Inv settings (finishListing s p own outcome).next := by
  have hown : (s.calls p).outer.future = some own := by rw [hphase]; rfl
  have hstamp : ∀ loaded, outcome = some loaded →
      Since s.invalidations (settings.group own.key) own.registeredAt loaded.oldest := by
    rintro loaded rfl
    exact (h.outer p).stamp own loaded.oldest hown (by rw [hphase]; rfl)
  have hsound : OuterSound settings s.next (.finished (some (own, outcome))) := by
    refine (h.outer p).owner hown rfl rfl (by intros; simp) ?_
    intro t ht
    obtain ⟨loaded, hloaded, rfl⟩ := Option.map_eq_some_iff.mp ht
    exact hstamp loaded hloaded
  have hmarkers := h.markers.finish (k := own.key) (i := p) (t := own.registeredAt) (by
    unfold State.active
    rw [hphase]
    rfl)
  have hfuture : ∀ own', (s.calls p).outer.future = some own' →
      (Outer.finished (some (own, outcome))).future = some own' := by
    intro own' hown'
    rwa [hown] at hown'
  have hlisting : ∀ loaded, outcome = some loaded →
      Since s.invalidations (settings.group own.key) own.startedAt loaded.oldest := by
    intro loaded hloaded
    exact (Since.of_le ((h.outer p).owns own hown).1).trans (hstamp loaded hloaded)
  have hinflight : (finishListing s p own outcome).inflight =
      if s.inflight own.key = some p then Function.update s.inflight own.key none
      else s.inflight := by
    unfold finishListing
    cases outcome <;> dsimp only <;> split <;> rfl
  refine h.moveOuter (.finished (some (own, outcome))) ?_ ?_ ?_ ?_ ?_ ?_ ?_ ?_ ?_ ?_
    (fun _ _ hbuilding => by cases hbuilding) hfuture hsound
  · unfold finishListing State.next
    cases outcome <;> dsimp only <;> split <;> rfl
  · unfold finishListing State.next
    cases outcome <;> dsimp only <;> split <;> rfl
  · unfold finishListing State.next
    cases outcome <;> dsimp only <;> split <;> rfl
  · unfold finishListing State.next
    cases outcome <;> dsimp only <;> split <;> rfl
  · unfold finishListing State.next
    cases outcome <;> dsimp only <;> split <;> rfl
  · unfold finishListing State.next
    cases outcome <;> dsimp only <;> split <;> rfl
  · unfold finishListing State.next
    cases outcome <;> dsimp only <;> split <;> rfl
  · intro pair hpair
    left
    unfold finishListing State.next at hpair
    cases outcome <;> dsimp only at hpair <;> split at hpair <;> exact hpair
  · intro r hr
    unfold finishListing State.next at hr
    cases outcome with
    | none =>
      left
      dsimp only at hr
      split at hr <;> exact hr
    | some loaded =>
      have hr : r ∈ s.listings ++ [⟨own.key, own.startedAt, loaded⟩] := by
        dsimp only at hr
        split at hr <;> exact hr
      refine (List.mem_append.mp hr).imp_right ?_
      intro hr
      rw [List.mem_singleton.mp hr]
      have howns := (h.outer p).owns own hown
      exact ⟨Nat.lt_of_le_of_lt howns.1 howns.2, hlisting loaded rfl⟩
  · show Markers _ _ (finishListing s p own outcome).inflight _
    rw [hinflight]
    exact hmarkers

/-! ## Steps of a payload read -/

omit [DecidableEq Key] in
theorem Inv.withPayloadCache (h : Inv settings s) {table : LruTable (Group × Bool) (Loaded P)}
    (hmem : ∀ pair ∈ table, pair ∈ s.payloadCache) :
    Inv settings { s with payloadCache := table } where
  times := h.times
  cached := h.cached
  payloadCached pair hpair := h.payloadCached pair (hmem pair hpair)
  listings := h.listings
  payloads := h.payloads
  markers := h.markers
  payloadMarkers := h.payloadMarkers
  outer p := (h.outer p).frame (u := { s with payloadCache := table }) (Nat.le_refl _) rfl
    fun _ _ => id
  inner p := (h.inner p).frame (u := { s with payloadCache := table }) (Nat.le_refl _) rfl
    (fun _ => id) fun _ => rfl

omit [DecidableEq Group] [DecidableEq Key] in
theorem next_outerSound {outer : Outer Key V} (h : OuterSound settings s outer) :
    OuterSound settings s.next outer :=
  h.frame (Nat.le_succ _) rfl fun _ _ => id

omit [DecidableEq Group] [DecidableEq Key] in
/-- A call whose inner phase marks as before keeps the running loads. -/
theorem activeLoad_of_marks {p : ℕ} (outer : Outer Key V) (inner : Inner Group P) (loads : ℕ)
    (hcalls : s'.calls = Function.update s.calls p ⟨outer, inner, loads⟩)
    (hmarks : inner.marks = (s.calls p).inner.marks) : s'.activeLoad = s.activeLoad := by
  funext event
  unfold State.activeLoad
  rw [hcalls]
  by_cases hp : event.1 = p
  · rw [hp, Function.update_self, hmarks]
  · rw [Function.update_of_ne hp]

omit [DecidableEq Key] in
/-- A read goes on with the same load or none. -/
theorem Inv.setInner (h : Inv settings s) {p : ℕ} {inner : Inner Group P}
    (hread : inner.read = (s.calls p).inner.read) (hload : inner.load = (s.calls p).inner.load)
    (hmarks : inner.marks = (s.calls p).inner.marks)
    (hstamp : ∀ load t, inner.load = some load → inner.stamp = some t →
      Since s.invalidations load.read.endpoint load.registeredAt t)
    (hwaits : ∀ read event, inner = .waiting read event → s.Settles event) :
    Inv settings (s.setInner p inner).next := by
  have hsettles : ∀ event, s.Settles event → (s.setInner p inner).next.Settles event := by
    rintro event (hset | ⟨load, hevent, hid⟩)
    · exact .inl hset
    · refine .inr ⟨load, ?_, hid⟩
      show (Function.update s.calls p _ event.1).inner.load = some load
      by_cases hp : event.1 = p
      · rw [hp] at hevent
        rw [hp, Function.update_self]
        exact hload.trans hevent
      · rw [Function.update_of_ne hp]
        exact hevent
  have hframe := (h.inner p).frame (u := (s.setInner p inner).next) (Nat.le_succ _) rfl hsettles
    fun _ => rfl
  refine h.moveInner (s.calls p).outer inner (s.calls p).loads
    rfl rfl rfl rfl rfl rfl (fun _ _ => rfl) (fun _ => .inl) (fun _ => .inl) ?_ rfl rfl
    (fun event _ => hsettles event) (next_outerSound (h.outer p)) ?_
  · have hsame : (s.setInner p inner).next.activeLoad = s.activeLoad :=
      activeLoad_of_marks _ _ _ rfl hmarks
    rw [hsame]
    exact h.payloadMarkers
  · refine ⟨?_, ?_, ?_, hstamp, ?_, hframe.unset⟩
    · intro read hr
      exact hframe.reads read (hread.symm.trans hr)
    · intro read own oldest hr houter
      exact hframe.nested read own oldest (hread.symm.trans hr) houter
    · intro load hl
      exact hframe.loads load (hload.symm.trans hl)
    · intro read event hwait
      exact hsettles event (hwaits read event hwait)

omit [DecidableEq Key] in
theorem startRead_inv (h : Inv settings s) {p : ℕ} {endpoint : Group} {withStats : Bool}
    (hs : startRead settings s p endpoint withStats = some s') : Inv settings s'.next := by
  have hstart : ∀ outer : Outer Key V, (s.calls p).inner = .idle →
      outer.active = (s.calls p).outer.active → outer.future = (s.calls p).outer.future →
      OuterSound settings s.next outer →
      (∀ own oldest, outer = .building own oldest →
        own.registeredAt ≤ s.time ∧ settings.group own.key = endpoint) →
      Inv settings (s.setCall p
        ⟨outer, .reading ⟨endpoint, withStats, s.time⟩, (s.calls p).loads⟩).next := by
    intro outer hidle hactive hfuture hsound hnested
    refine h.moveInner _ _ _ rfl rfl rfl rfl rfl rfl (fun _ _ => rfl) (fun _ => .inl) (fun _ => .inl) ?_
      hactive hfuture ?_ hsound ?_
    · have hmarks : (Inner.reading (P := P) ⟨endpoint, withStats, s.time⟩).marks =
          (s.calls p).inner.marks := by
        rw [hidle]
        rfl
      have hsame : (s.setCall p ⟨outer, .reading ⟨endpoint, withStats, s.time⟩,
          (s.calls p).loads⟩).next.activeLoad = s.activeLoad :=
        activeLoad_of_marks _ _ _ rfl hmarks
      rw [hsame]
      exact h.payloadMarkers
    · rintro event hp (hset | ⟨load, hload, _⟩)
      · exact .inl hset
      · rw [hp, hidle] at hload
        cases hload
    · refine ⟨?_, ?_, ?_, ?_, ?_, ?_⟩
      · rintro read ⟨⟩
        exact Nat.lt_succ_self _
      · rintro read own oldest ⟨⟩ houter
        exact hnested own oldest houter
      · intro load hload
        cases hload
      · intro load t hload
        cases hload
      · intro read event hwait
        cases hwait
      · exact (h.inner p).unset
  simp only [startRead] at hs
  split at hs
  · rename_i own oldest hinner houter
    simp only [Option.ite_none_right_eq_some, Option.some.injEq] at hs
    obtain ⟨hgroup, rfl⟩ := hs
    refine hstart (s.calls p).outer hinner rfl rfl (next_outerSound (h.outer p)) ?_
    intro own' oldest' houter'
    rw [houter] at houter'
    cases houter'
    exact ⟨Nat.le_of_lt ((h.outer p).owns own (by rw [houter]; rfl)).2, hgroup⟩
  · rename_i hinner houter
    cases hs
    have := hstart .direct hinner (by rw [houter]; rfl) (by rw [houter]; rfl)
      (.plain rfl (fun _ _ hpending => by cases hpending) (by intros; simp))
      (fun _ _ hbuilding => by cases hbuilding)
    simpa [State.setOuter, State.setInner, State.setCall] using this
  · rename_i hinner houter
    cases hs
    refine hstart (s.calls p).outer hinner rfl rfl (next_outerSound (h.outer p)) ?_
    intro own oldest hbuilding
    rw [houter] at hbuilding
    cases hbuilding
  · cases hs

omit [DecidableEq Group] [DecidableEq Key] in
theorem uses_active (loaded : Loaded P) (outer : Outer Key V) :
    (outer.uses loaded).active = outer.active ∧ (outer.uses loaded).future = outer.future := by
  cases outer <;> exact ⟨rfl, rfl⟩

omit [DecidableEq Group] [DecidableEq Key] in
/-- A builder that read a payload rests on loads since its registration. -/
theorem uses_sound {p : ℕ} {read : Read Group} {loaded : Loaded P}
    (houter : OuterSound settings s (s.calls p).outer)
    (hinner : InnerSound settings s p (s.calls p)) (hread : (s.calls p).inner.read = some read)
    (hsince : Since s.invalidations read.endpoint read.startedAt loaded.oldest) :
    OuterSound settings s ((s.calls p).outer.uses loaded) := by
  by_cases hbuilding : ∃ own oldest, (s.calls p).outer = .building own oldest
  · obtain ⟨own, oldest, hbuilding⟩ := hbuilding
    obtain ⟨hle, hgroup⟩ := hinner.nested read own oldest hread hbuilding
    have hstamp := houter.stamp own oldest (by rw [hbuilding]; rfl) (by rw [hbuilding]; rfl)
    have howns := houter.owns own (by rw [hbuilding]; rfl)
    rw [hbuilding]
    refine ⟨?_, ?_, ?_, ?_⟩
    · intro key t hpending
      cases hpending
    · intro key t f hwaiting
      cases hwaiting
    · rintro own' ⟨⟩
      exact howns
    · rintro own' t ⟨⟩ ⟨⟩
      refine hstamp.min ?_
      rw [hgroup]
      exact (Since.of_le hle).trans hsince
  · have hsame : (s.calls p).outer.uses loaded = (s.calls p).outer := by
      cases houter' : (s.calls p).outer
      all_goals first | rfl | exact absurd ⟨_, _, houter'⟩ hbuilding
    rw [hsame]
    exact houter

omit [DecidableEq Key] in
/-- A read returns; if it was a load, its event is set with it. -/
theorem returnPayload_inv (h : Inv settings s) {p : ℕ} {read : Read Group} {loaded : Loaded P}
    (set : EventId → Bool) (hread : (s.calls p).inner.read = some read)
    (hmarks : (s.calls p).inner.marks = none)
    (hsince : Since s.invalidations read.endpoint read.startedAt loaded.oldest)
    (hother : ∀ event, event.1 ≠ p → set event = s.eventSet event)
    (hunset : ∀ n, (s.calls p).loads ≤ n → set (p, n) = s.eventSet (p, n))
    (hsettles : ∀ event, event.1 = p → s.Settles event → set event = true) :
    Inv settings (returnPayload { s with eventSet := set } p read loaded).next := by
  obtain ⟨hactive, hfuture⟩ := uses_active loaded (s.calls p).outer
  refine h.moveInner ((s.calls p).outer.uses loaded) .idle
    (s.calls p).loads rfl rfl rfl rfl rfl rfl hother (fun _ => .inl) ?_ ?_ hactive hfuture
    (fun event hp hevent => .inl (hsettles event hp hevent)) ?_ ?_
  · intro r hr
    refine (List.mem_append.mp hr).imp_right ?_
    intro hr
    rw [List.mem_singleton.mp hr]
    exact ⟨(h.inner p).reads read hread, hsince⟩
  · have hsame : (returnPayload { s with eventSet := set } p read loaded).next.activeLoad =
        s.activeLoad :=
      activeLoad_of_marks ((s.calls p).outer.uses loaded) .idle (s.calls p).loads rfl hmarks.symm
    rw [hsame]
    exact h.payloadMarkers
  · exact next_outerSound (uses_sound (h.outer p) (h.inner p) hread hsince)
  · refine ⟨?_, ?_, ?_, ?_, ?_, ?_⟩
    · intro read' hr
      cases hr
    · intro read' own oldest hr
      cases hr
    · intro load hload
      cases hload
    · intro load t hload
      cases hload
    · intro read' event hwait
      cases hwait
    · intro n hn
      exact (hunset n hn).trans ((h.inner p).unset n hn)

theorem mem_of_cachedRgwBucketEntries {table table' : LruTable (Group × Bool) (Loaded P)}
    {read : Read Group} {loaded : Loaded P}
    (h : cachedRgwBucketEntries table read = some (loaded, table')) :
    (∃ pair ∈ table, pair.1.1 = read.endpoint ∧ pair.2.value = loaded) ∧
      ∀ pair ∈ table', pair ∈ table := by
  simp only [cachedRgwBucketEntries] at h
  split at h
  · rename_i cached hget
    cases h
    exact ⟨⟨_, LruTable.mem_of_get hget, rfl, rfl⟩, fun _ => LruTable.mem_moveToEnd.mp⟩
  · split at h
    · cases h
    · obtain ⟨cached, hget, hpair⟩ := Option.map_eq_some_iff.mp h
      cases hpair
      exact ⟨⟨_, LruTable.mem_of_get hget, rfl, rfl⟩, fun _ => LruTable.mem_moveToEnd.mp⟩

/-- A read registers its event and loads. -/
def State.registerLoad (s : State Key Group V P) (p : ℕ) (read : Read Group) :
    State Key Group V P :=
  let event := (p, (s.calls p).loads)
  let inflight := Function.update s.payloadInflight read.endpoint (some event)
  ({ s with payloadInflight := inflight } : State Key Group V P).setCall p
    ⟨(s.calls p).outer, .registered ⟨read, event, s.time⟩, (s.calls p).loads + 1⟩

omit [DecidableEq Key] in
theorem registerLoad_inv (h : Inv settings s) {p : ℕ} {read : Read Group}
    (hphase : (s.calls p).inner = .reading read)
    (hfree : s.payloadInflight read.endpoint = none) :
    Inv settings (s.registerLoad p read).next := by
  set event : EventId := (p, (s.calls p).loads) with hevent
  set next := (s.registerLoad p read).next with hnext
  have hsound := h.inner p
  have hstarted : read.startedAt < s.time := hsound.reads read (by rw [hphase]; rfl)
  have hinactive : ∀ n, s.activeLoad (p, n) = none := by
    intro n
    unfold State.activeLoad
    rw [hphase]
    rfl
  refine h.moveInner _ _ _ rfl rfl rfl rfl rfl rfl (fun _ _ => rfl) (fun _ => .inl)
    (fun _ => .inl) ?_ rfl rfl ?_ (next_outerSound (h.outer p)) ?_
  · have hactive : next.activeLoad =
        Function.update s.activeLoad event (some (read.endpoint, s.time)) := by
      funext other
      by_cases hother : other = event
      · rw [hother, Function.update_self]
        simp [hnext, State.activeLoad, State.next, State.registerLoad, State.setCall, hevent, Inner.marks,
          Inner.load]
      · rw [Function.update_of_ne hother]
        by_cases hp : other.1 = p
        · have hpair : other = (p, other.2) := Prod.ext hp rfl
          rw [hpair, hinactive]
          have hne : event ≠ (p, other.2) := fun hsame => hother (hpair.trans hsame.symm)
          have hne' : ¬ ((p, (s.calls p).loads) = (p, other.2)) := hne
          simpa [hnext, State.activeLoad, State.next, State.registerLoad, State.setCall, Inner.marks,
            Inner.load] using hne'
        · simp [hnext, State.activeLoad, State.next, State.registerLoad, State.setCall,
            Function.update_of_ne hp]
    rw [hactive]
    exact h.payloadMarkers.register hfree (hinactive _) h.times
  · rintro other hp (hset | ⟨load, hload, _⟩)
    · exact .inl hset
    · rw [hp, hphase] at hload
      cases hload
  · refine ⟨?_, ?_, ?_, ?_, ?_, ?_⟩
    · rintro read' ⟨⟩
      exact Nat.lt_succ_of_lt hstarted
    · rintro read' own oldest ⟨⟩ houter
      exact hsound.nested read own oldest (by rw [hphase]; rfl) houter
    · rintro load ⟨⟩
      exact ⟨Nat.le_of_lt hstarted, Nat.lt_succ_self _, rfl, Nat.lt_succ_self _,
        hsound.unset _ (Nat.le_refl _)⟩
    · intro load t _ ht
      cases ht
    · intro read' event' hwait
      cases hwait
    · intro n hn
      exact hsound.unset n (Nat.le_of_succ_le hn)

omit [DecidableEq Key] in
theorem lookupPayload_inv (h : Inv settings s) {p : ℕ} {read : Read Group}
    (hphase : (s.calls p).inner = .reading read) :
    Inv settings (lookupPayload settings s p read).next := by
  have hread : (s.calls p).inner.read = some read := by rw [hphase]; rfl
  have hprune : ∀ pair ∈ s.payloadCache.prune s.clock settings.payloadMaxEntries,
      pair ∈ s.payloadCache := fun _ => LruTable.mem_of_prune
  simp only [lookupPayload]
  split
  · rename_i loaded table hcached
    obtain ⟨⟨pair, hpair, hendpoint, hvalue⟩, hmem⟩ := mem_of_cachedRgwBucketEntries hcached
    have hsince : Since s.invalidations read.endpoint read.startedAt loaded.oldest := by
      have hfresh := h.payloadCached pair (hprune pair hpair)
      rw [hendpoint, hvalue] at hfresh
      exact hfresh.since
    refine returnPayload_inv (h.withPayloadCache fun pair hpair => hprune pair (hmem pair hpair))
      s.eventSet hread ?_ hsince (fun _ _ => rfl) (fun _ _ => rfl) ?_
    · show (s.calls p).inner.marks = none
      rw [hphase]
      rfl
    · rintro event hp (hset | ⟨load, hload, _⟩)
      · exact hset
      · change (s.calls event.1).inner.load = some load at hload
        rw [hp, hphase] at hload
        cases hload
  · have hpruned := h.withPayloadCache hprune
    split
    · rename_i event hmark
      refine hpruned.setInner ?_ ?_ ?_ ?_ ?_
      · exact hread.symm
      · show none = (s.calls p).inner.load
        rw [hphase]
        rfl
      · show none = (s.calls p).inner.marks
        rw [hphase]
        rfl
      · intro load t hload
        cases hload
      · rintro read' event' ⟨⟩
        -- the marker is of a running load
        obtain ⟨t, hactive, _⟩ := h.payloadMarkers.marked _ _ hmark
        obtain ⟨load, hload, hid⟩ := Option.bind_eq_some_iff.mp hactive
        simp only [Option.ite_none_right_eq_some] at hid
        refine .inr ⟨load, ?_, hid.1⟩
        show (s.calls event.1).inner.load = some load
        cases hinner : (s.calls event.1).inner <;> rw [hinner] at hload <;>
          first | exact hload | cases hload
    · rename_i hfree
      exact registerLoad_inv hpruned hphase hfree

omit [DecidableEq Key] in
theorem storePayload_inv (h : Inv settings s) {p : ℕ} {load : Load Group} {loaded : Loaded P}
    {expiresAt : ℕ} (hphase : (s.calls p).inner = .loaded load loaded expiresAt) :
    Inv settings (storePayload settings s p load loaded expiresAt).next := by
  have hsince : Since s.invalidations load.read.endpoint load.registeredAt loaded.oldest :=
    (h.inner p).loadStamp load loaded.oldest (by rw [hphase]; rfl) (by rw [hphase]; rfl)
  have hmove : ∀ {s₀ : State Key Group V P}, Inv settings s₀ →
      (s₀.calls p).inner = .loaded load loaded expiresAt →
      Since s₀.invalidations load.read.endpoint load.registeredAt loaded.oldest →
      Inv settings (s₀.setInner p (.finishing load (some loaded))).next := by
    intro s₀ h₀ hphase₀ hsince₀
    refine h₀.setInner (by rw [hphase₀]; rfl) (by rw [hphase₀]; rfl) (by rw [hphase₀]; rfl) ?_ ?_
    · rintro load' t ⟨⟩ ⟨⟩
      exact hsince₀
    · intro read event hwait
      cases hwait
  simp only [storePayload]
  split
  · rename_i hmark
    refine hmove ?_ hphase hsince
    -- the marker is still there: no invalidation came since the registration
    have hfresh : Fresh s.invalidations load.read.endpoint loaded.oldest := by
      obtain ⟨t, hactive, hfresh⟩ := h.payloadMarkers.marked _ _ hmark
      obtain ⟨_, _, hp, _, _⟩ := (h.inner p).loads load (by rw [hphase]; rfl)
      unfold State.activeLoad at hactive
      rw [hp, hphase] at hactive
      simp only [Inner.marks, Inner.load, Option.bind_some, if_true, Option.some.injEq,
        Prod.mk.injEq, true_and] at hactive
      rw [← hactive] at hfresh
      exact hfresh.trans hsince
    refine ⟨h.times, h.cached, ?_, h.listings, h.payloads, h.markers, h.payloadMarkers, ?_, ?_⟩
    · intro pair hpair
      rcases LruTable.mem_store.mp (LruTable.mem_of_prune hpair) with ⟨hold, _⟩ | rfl
      · exact h.payloadCached pair hold
      · exact hfresh
    · intro q
      exact (h.outer q).frame (Nat.le_refl _) rfl fun _ _ => id
    · intro q
      exact (h.inner q).frame (Nat.le_refl _) rfl (fun _ => id) fun _ => rfl
  · exact hmove h hphase hsince

omit [DecidableEq Key] in
theorem finishPayload_inv (h : Inv settings s) {p : ℕ} {load : Load Group}
    {outcome : Option (Loaded P)} (hphase : (s.calls p).inner = .finishing load outcome) :
    Inv settings (finishPayload s p load outcome).next := by
  have hsound := h.inner p
  obtain ⟨_, _, hp, _, _⟩ := hsound.loads load (by rw [hphase]; rfl)
  have hmine : s.activeLoad load.event = some (load.read.endpoint, load.registeredAt) := by
    unfold State.activeLoad
    rw [hp, hphase]
    simp [Inner.marks, Inner.load]
  have hmarkers := h.payloadMarkers.finish hmine
  have hcalls : (finishPayload s p load outcome).next.calls = Function.update s.calls p
      ⟨(s.calls p).outer, .setting load outcome, (s.calls p).loads⟩ := by
    simp only [finishPayload, State.next]
    split <;> rfl
  have hactive : (finishPayload s p load outcome).next.activeLoad =
      Function.update s.activeLoad load.event none := by
    funext other
    by_cases hother : other = load.event
    · rw [hother, Function.update_self]
      unfold State.activeLoad
      rw [hcalls, hp, Function.update_self]
      rfl
    · rw [Function.update_of_ne hother]
      unfold State.activeLoad
      rw [hcalls]
      by_cases hq : other.1 = p
      · rw [hq, Function.update_self, hphase]
        show none = (if load.event = other then _ else none)
        rw [if_neg (Ne.symm hother)]
      · rw [Function.update_of_ne hq]
  have hsettles : ∀ event, s.Settles event → (finishPayload s p load outcome).next.Settles event := by
    rintro event (hset | ⟨load', hload, hid⟩)
    · left
      simp only [finishPayload, State.next]
      split <;> exact hset
    · refine .inr ⟨load', ?_, hid⟩
      rw [hcalls]
      by_cases hq : event.1 = p
      · rw [hq, hphase] at hload
        rw [hq, Function.update_self]
        exact hload
      · rw [Function.update_of_ne hq]
        exact hload
  have hset : (finishPayload s p load outcome).next.eventSet = s.eventSet := by
    simp only [finishPayload, State.next]
    split <;> rfl
  have hframe := hsound.frame (u := (finishPayload s p load outcome).next)
    (by simp only [finishPayload, State.next]; split <;> exact Nat.le_succ _)
    (by simp only [finishPayload, State.next]; split <;> rfl) hsettles (fun n => by rw [hset])
  refine h.moveInner _ _ _ hcalls ?_ ?_ ?_ ?_ ?_ (fun event _ => by rw [hset]) ?_ ?_ ?_ rfl rfl
    (fun event _ => hsettles event) (next_outerSound (h.outer p)) ?_
  · simp only [finishPayload, State.next]
    split <;> rfl
  · simp only [finishPayload, State.next]
    split <;> rfl
  · simp only [finishPayload, State.next]
    split <;> rfl
  · simp only [finishPayload, State.next]
    split <;> rfl
  · simp only [finishPayload, State.next]
    split <;> rfl
  · intro pair hpair
    left
    simp only [finishPayload, State.next] at hpair
    split at hpair <;> exact hpair
  · intro r hr
    left
    simp only [finishPayload, State.next] at hr
    split at hr <;> exact hr
  · rw [hactive]
    have hinflight : (finishPayload s p load outcome).next.payloadInflight =
        if s.payloadInflight load.read.endpoint = some load.event then
          Function.update s.payloadInflight load.read.endpoint none
        else s.payloadInflight := by
      simp only [finishPayload, State.next]
      split <;> rfl
    rw [hinflight]
    exact hmarkers
  · refine ⟨?_, ?_, ?_, ?_, ?_, hframe.unset⟩
    · rintro read ⟨⟩
      exact hframe.reads load.read (by rw [hphase]; rfl)
    · rintro read own oldest ⟨⟩ houter
      exact hframe.nested load.read own oldest (by rw [hphase]; rfl) houter
    · rintro load' ⟨⟩
      exact hframe.loads load (by rw [hphase]; rfl)
    · rintro load' t ⟨⟩ ht
      exact hframe.loadStamp load t (by rw [hphase]; rfl) (by rw [hphase]; exact ht)
    · intro read event hwait
      cases hwait

omit [DecidableEq Key] in
theorem setEvent_inv (h : Inv settings s) {p : ℕ} {load : Load Group}
    {outcome : Option (Loaded P)} (hphase : (s.calls p).inner = .setting load outcome) :
    Inv settings (setEvent s p load outcome).next := by
  have hsound := h.inner p
  have hload : (s.calls p).inner.load = some load := by rw [hphase]; rfl
  obtain ⟨hle, _, hp, hlt, _⟩ := hsound.loads load hload
  have hother : ∀ event : EventId, event.1 ≠ p →
      Function.update s.eventSet load.event true event = s.eventSet event := by
    intro event hne
    rw [Function.update_of_ne]
    rintro rfl
    exact hne hp
  have hunset : ∀ n, (s.calls p).loads ≤ n →
      Function.update s.eventSet load.event true (p, n) = s.eventSet (p, n) := by
    intro n hn
    rw [Function.update_of_ne]
    intro hsame
    have : load.event.2 = n := (congrArg Prod.snd hsame).symm
    omega
  have hsettles : ∀ event : EventId, event.1 = p → s.Settles event →
      Function.update s.eventSet load.event true event = true := by
    rintro event hq (hset | ⟨load', hload', hid⟩)
    · by_cases hsame : event = load.event
      · rw [hsame, Function.update_self]
      · rw [Function.update_of_ne hsame]
        exact hset
    · rw [hq, hload] at hload'
      cases hload'
      rw [← hid, Function.update_self]
  cases outcome with
  | some loaded =>
    refine returnPayload_inv h _ (by rw [hphase]; rfl) (by rw [hphase]; rfl) ?_ hother hunset hsettles
    exact (Since.of_le hle).trans
      (hsound.loadStamp load loaded.oldest hload (by rw [hphase]; rfl))
  | none =>
    refine h.moveInner (s.calls p).outer .idle (s.calls p).loads
      rfl rfl rfl rfl rfl rfl hother (fun _ => .inl) (fun _ => .inl) ?_ rfl rfl
      (fun event hq hevent => .inl (hsettles event hq hevent)) (next_outerSound (h.outer p)) ?_
    · have hsame : (setEvent s p load none).next.activeLoad = s.activeLoad :=
        activeLoad_of_marks (s.calls p).outer .idle (s.calls p).loads rfl (by rw [hphase]; rfl)
      rw [hsame]
      exact h.payloadMarkers
    · refine ⟨?_, ?_, ?_, ?_, ?_, ?_⟩
      · intro read hr
        cases hr
      · intro read own oldest hr
        cases hr
      · intro load' hl
        cases hl
      · intro load' t hl
        cases hl
      · intro read event hwait
        cases hwait
      · intro n hn
        exact (hunset n hn).trans (hsound.unset n hn)

/-! ## Invalidations -/

theorem invalidate_inv (h : Inv settings s) (covers : Group → Bool) :
    Inv settings (invalidate settings s covers).next where
  times i hi := by
    rcases List.mem_append.mp hi with hi | hi
    · exact Nat.lt_succ_of_lt (h.times i hi)
    · rw [List.mem_singleton.mp hi]
      exact Nat.lt_succ_self _
  cached pair hpair := by
    have hpair : pair ∈ s.cache.removeWhere fun key => covers (settings.group key) := hpair
    obtain ⟨hold, hcovers⟩ := LruTable.mem_removeWhere.mp hpair
    exact (h.cached pair hold).add hcovers
  payloadCached pair hpair := by
    have hpair : pair ∈ s.payloadCache.removeWhere fun key => covers key.1 := hpair
    obtain ⟨hold, hcovers⟩ := LruTable.mem_removeWhere.mp hpair
    exact (h.payloadCached pair hold).add hcovers
  listings r hr := by
    obtain ⟨hlt, hsince⟩ := h.listings r hr
    exact ⟨Nat.lt_succ_of_lt hlt, hsince.add (Nat.le_of_lt hlt)⟩
  payloads r hr := by
    obtain ⟨hlt, hsince⟩ := h.payloads r hr
    exact ⟨Nat.lt_succ_of_lt hlt, hsince.add (Nat.le_of_lt hlt)⟩
  markers := by
    refine h.markers.invalidate ⟨s.time, covers⟩ ?_
    intro p key t hactive
    obtain ⟨own, hown, hpair⟩ := Option.map_eq_some_iff.mp hactive
    cases hpair
    have hfuture : (s.calls p).outer.future = some own := by
      cases houter : (s.calls p).outer <;> rw [houter] at hown <;>
        first | exact hown | cases hown
    exact Nat.le_of_lt ((h.outer p).owns own hfuture).2
  payloadMarkers := by
    refine h.payloadMarkers.invalidate ⟨s.time, covers⟩ ?_
    intro event endpoint t hactive
    obtain ⟨load, hload, hid⟩ := Option.bind_eq_some_iff.mp hactive
    simp only [Option.ite_none_right_eq_some, Option.some.injEq, Prod.mk.injEq] at hid
    obtain ⟨_, _, rfl⟩ := hid
    have hload' : (s.calls event.1).inner.load = some load := by
      cases hinner : (s.calls event.1).inner <;> rw [hinner] at hload <;>
        first | exact hload | cases hload
    exact Nat.le_of_lt ((h.inner event.1).loads load hload').2.1
  outer p := by
    have hsound := h.outer p
    refine ⟨?_, ?_, ?_, ?_⟩
    · intro key t hpending
      exact Nat.lt_succ_of_lt (hsound.pending key t hpending)
    · intro key t f hwaiting
      obtain ⟨own, hown, hkey, hsince⟩ := hsound.waits key t f hwaiting
      refine ⟨own, hown, hkey, hsince.add (Nat.le_of_lt (hsound.pending key t ?_))⟩
      change (s.calls p).outer = .waiting key t f at hwaiting
      rw [hwaiting]
      rfl
    · intro own hown
      exact (hsound.owns own hown).imp_right Nat.lt_succ_of_lt
    · intro own t hown ht
      exact (hsound.stamp own t hown ht).add (Nat.le_of_lt (hsound.owns own hown).2)
  inner p := by
    have hsound := h.inner p
    refine ⟨?_, hsound.nested, ?_, ?_, hsound.waits, hsound.unset⟩
    · intro read hread
      exact Nat.lt_succ_of_lt (hsound.reads read hread)
    · intro load hload
      obtain ⟨hle, hlt, hrest⟩ := hsound.loads load hload
      exact ⟨hle, Nat.lt_succ_of_lt hlt, hrest⟩
    · intro load t hload ht
      exact (hsound.loadStamp load t hload ht).add
        (Nat.le_of_lt (hsound.loads load hload).2.1)

/-! ## Every step keeps the invariant -/

theorem advanceOuter_inv (h : Inv settings s) {p : ℕ} (hs : advanceOuter settings s p = some s')
    (hidle : (s.calls p).inner = .idle) : Inv settings s'.next := by
  unfold advanceOuter at hs
  split at hs
  · cases hs
    exact lookup_inv h ‹_›
  · rename_i key startedAt future hphase
    split at hs
    · cases hs
      exact waitingReturn_inv h hphase ‹_›
    · cases hs
      refine h.setOuter (by rw [hphase]; rfl) (fun _ _ hbuilding => by cases hbuilding) ?_
        (.plain rfl (fun _ _ hpending => by cases hpending) (by intros; simp))
      intro own hown
      rw [hphase] at hown
      cases hown
    · cases hs
  · rename_i own hphase
    cases hs
    have hown : (s.calls p).outer.future = some own := by rw [hphase]; rfl
    refine h.setOuter (by rw [hphase]; rfl) (fun _ _ _ => hidle) ?_
      ((h.outer p).owner hown rfl rfl (by intros; simp) ?_)
    · intro own' hown'
      rwa [hown] at hown'
    · rintro t ⟨⟩
      exact Since.of_le (Nat.le_of_lt ((h.outer p).owns own hown).2)
  · cases hs
    exact storeListing_inv h ‹_›
  · rename_i own loaded hphase
    cases hs
    have hown : (s.calls p).outer.future = some own := by rw [hphase]; rfl
    refine h.setOuter (by rw [hphase]; rfl) (fun _ _ hbuilding => by cases hbuilding) ?_
      ((h.outer p).owner hown rfl rfl (by intros; simp) ?_)
    · intro own' hown'
      rwa [hown] at hown'
    · rintro t ⟨⟩
      exact (h.outer p).stamp own _ hown (by rw [hphase]; rfl)
  · rename_i own hphase
    cases hs
    have hown : (s.calls p).outer.future = some own := by rw [hphase]; rfl
    refine h.setOuter (by rw [hphase]; rfl) (fun _ _ hbuilding => by cases hbuilding) ?_
      ((h.outer p).owner hown rfl rfl (by intros; simp) ?_)
    · intro own' hown'
      rwa [hown] at hown'
    · intro t ht
      cases ht
  · cases hs
    exact finishListing_inv h ‹_›
  · cases hs

omit [DecidableEq Key] in
theorem advanceInner_inv (h : Inv settings s) {p : ℕ}
    (hs : advanceInner settings s p = some s') : Inv settings s'.next := by
  unfold advanceInner at hs
  split at hs
  · cases hs
    exact lookupPayload_inv h ‹_›
  · rename_i read event hphase
    simp only [Option.ite_none_right_eq_some, Option.some.injEq] at hs
    obtain ⟨_, rfl⟩ := hs
    refine h.setInner (by rw [hphase]; rfl) (by rw [hphase]; rfl) (by rw [hphase]; rfl) ?_ ?_
    · intro load t hload
      cases hload
    · intro read' event' hwait
      cases hwait
  · rename_i load hphase
    cases hs
    refine h.setInner (by rw [hphase]; rfl) (by rw [hphase]; rfl) (by rw [hphase]; rfl) ?_ ?_
    · rintro load' t ⟨⟩ ⟨⟩
      exact Since.of_le (Nat.le_of_lt ((h.inner p).loads load (by rw [hphase]; rfl)).2.1)
    · intro read' event' hwait
      cases hwait
  · cases hs
    exact storePayload_inv h ‹_›
  · cases hs
    exact finishPayload_inv h ‹_›
  · cases hs
    exact setEvent_inv h ‹_›
  · cases hs

omit [DecidableEq Key] in
/-- A builder that ends leaves its phase with the value, or without one. -/
theorem builderEnds_inv (h : Inv settings s) {p : ℕ} {own : Ownership Key} {oldest : ℕ}
    {outer : Outer Key V} (hphase : (s.calls p).outer = .building own oldest)
    (hactive : outer.active = some own) (hfuture : outer.future = some own)
    (hpending : outer.pending = none) (hwaits : ∀ key t f, outer ≠ .waiting key t f)
    (hbuilding : ∀ own oldest, outer ≠ .building own oldest)
    (hstamp : ∀ t, outer.stamp = some t → t = oldest) :
    Inv settings (s.setOuter p outer).next := by
  have hown : (s.calls p).outer.future = some own := by rw [hphase]; rfl
  refine h.setOuter (by rw [hphase]; exact hactive)
    (fun own' oldest' h' => absurd h' (hbuilding own' oldest')) ?_
    ((h.outer p).owner hown hfuture hpending hwaits ?_)
  · intro own' hown'
    rw [hown] at hown'
    cases hown'
    exact hfuture
  · intro t ht
    rw [hstamp t ht]
    exact (h.outer p).stamp own oldest hown (by rw [hphase]; rfl)

theorem step_inv {label : Label Key Group V P} (h : Inv settings s)
    (hstep : step settings s label = some s') : Inv settings s' := by
  obtain ⟨acted, hs, rfl⟩ := Option.map_eq_some_iff.mp hstep
  clear hstep
  change Inv settings acted.next
  cases label with
  | tick elapsed =>
    cases hs
    refine ⟨times_next h.times rfl rfl, h.cached, h.payloadCached, ?_, ?_, h.markers,
      h.payloadMarkers, ?_, ?_⟩
    · intro r hr
      exact (h.listings r hr).imp_left Nat.lt_succ_of_lt
    · intro r hr
      exact (h.payloads r hr).imp_left Nat.lt_succ_of_lt
    · intro p
      exact (h.outer p).frame (Nat.le_succ _) rfl fun _ _ => id
    · intro p
      exact (h.inner p).frame (Nat.le_succ _) rfl (fun _ => id) fun _ => rfl
  | call p key =>
    simp only [act] at hs
    split at hs
    · rename_i hphase
      cases hs
      refine h.setOuter (by rw [hphase]; rfl) (fun _ _ hbuilding => by cases hbuilding) ?_
        (.plain rfl ?_ (by intros; simp))
      · intro own hown
        rw [hphase] at hown
        cases hown
      · rintro key' t ⟨⟩
        exact Nat.lt_succ_self _
    · cases hs
  | readPayload p endpoint withStats => exact startRead_inv h hs
  | advance p =>
    simp only [act] at hs
    split at hs
    · exact advanceOuter_inv h hs ‹_›
    · exact advanceInner_inv h hs
  | builderReturns p value =>
    simp only [act] at hs
    split at hs
    · cases hs
      exact builderEnds_inv h ‹_› rfl rfl rfl (by intros; simp) (by intros; simp)
        (by rintro t ⟨⟩; rfl)
    · cases hs
  | builderRaises p =>
    simp only [act] at hs
    split at hs
    · cases hs
      exact builderEnds_inv h ‹_› rfl rfl rfl (by intros; simp) (by intros; simp)
        (by intro t ht; cases ht)
    · cases hs
  | loadReturns p entries =>
    simp only [act] at hs
    split at hs
    · rename_i load loaderStartedAt hphase
      cases hs
      refine h.setInner (by rw [hphase]; rfl) (by rw [hphase]; rfl) (by rw [hphase]; rfl) ?_ ?_
      · rintro load' t ⟨⟩ ⟨⟩
        exact (h.inner p).loadStamp load _ (by rw [hphase]; rfl) (by rw [hphase]; rfl)
      · intro read event hwait
        cases hwait
    · cases hs
  | loadRaises p =>
    simp only [act] at hs
    split at hs
    · rename_i load loaderStartedAt hphase
      cases hs
      refine h.setInner (by rw [hphase]; rfl) (by rw [hphase]; rfl) (by rw [hphase]; rfl) ?_ ?_
      · intro load' t _ ht
        cases ht
      · intro read event hwait
        cases hwait
    · cases hs
  | invalidate covers =>
    cases hs
    exact invalidate_inv h covers

theorem Reachable.inv {clock : ℕ} (h : Reachable settings clock s) : Inv settings s :=
  Reached.invariant (init_inv settings clock) (fun _ _ _ hinv _ hs => step_inv hinv hs) h

end Listings
end BucketReef
