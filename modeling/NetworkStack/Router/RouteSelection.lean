import NetworkStack.Lib.PrefixMask
import NetworkStack.Lib.Selection
import NetworkStack.Router.SourceCheck

/-!
# The choice of a route

The loop of `sr_handlepacket` over the routing table keeps the best route so far. It compares
the masks as numbers and takes a later route whose mask is not smaller, so it ends with the
last of the matching routes that have the greatest mask. If the ones of every mask are in
front, this is a route with the longest prefix.
-/

namespace NetworkStack.Router

open Bytes Buffer Selection PrefixMask

variable {sr : SrInstance} {destIp : Addr} {r : SrRt} {table : List SrRt}

/-- The address is in the network of the route. -/
def SrRt.Matches (r : SrRt) (destIp : Addr) : Prop :=
  swap32 r.dest &&& swap32 r.mask = swap32 r.mask &&& destIp

instance (r : SrRt) (destIp : Addr) : Decidable (r.Matches destIp) := by
  unfold SrRt.Matches
  infer_instance

/-- The mask as the loop compares it. -/
def SrRt.maskNumber (r : SrRt) : Nat := (swap32 r.mask).toNat

/-- The length of the route's prefix. -/
def SrRt.prefixLen (r : SrRt) : Nat := prefixLength (swap32 r.mask)

/-- The routes to an address. -/
def matching (table : List SrRt) (destIp : Addr) : List SrRt := table.filter (·.Matches destIp)

/-- The route to an address: the last of those with the greatest mask. -/
def BestRoute (table : List SrRt) (destIp : Addr) (r : SrRt) : Prop :=
  LastMax SrRt.maskNumber (matching table destIp) r

/-- The address is that of the interface of some route. -/
def Named (sr : SrInstance) (destIp : Addr) (r : SrRt) : Prop :=
  ∃ inter, srGetInterface sr r.interface = some inter ∧ destIp = swap32 inter.ip

instance (sr : SrInstance) (destIp : Addr) (r : SrRt) : Decidable (Named sr destIp r) :=
  match h : srGetInterface sr r.interface with
  | none => .isFalse (by simp [Named, h])
  | some inter => decidable_of_iff (destIp = swap32 inter.ip) (by simp [Named, h])

theorem mem_matching : r ∈ matching table destIp ↔ r ∈ table ∧ r.Matches destIp := by
  simp [matching]

theorem matching_cons (route : SrRt) (rest : List SrRt) (destIp : Addr) :
    matching (route :: rest) destIp =
      if route.Matches destIp then route :: matching rest destIp else matching rest destIp := by
  unfold matching
  rw [List.filter_cons]
  simp only [decide_eq_true_eq]

/-- The loop is a scan of the routes to the address, as long as none of them leads to an
interface that has it. -/
theorem routeLoop_scan (hknown : ∀ r ∈ table, (srGetInterface sr r.interface).isSome)
    (hnot : ∀ r ∈ table, ¬Named sr destIp r) {longest : Addr} {longs : Option SrRt}
    (hlongest : longest.toNat = longs.elim 0 SrRt.maskNumber) :
    routeLoop sr destIp table longest longs =
      some (false, scan SrRt.maskNumber longs (matching table destIp)) := by
  induction table generalizing longest longs with
  | nil => cases longs <;> rfl
  | cons route rest ih =>
      obtain ⟨inter, hinter⟩ := Option.isSome_iff_exists.mp (hknown route List.mem_cons_self)
      have hne : destIp ≠ swap32 inter.ip :=
        fun heq => hnot route List.mem_cons_self ⟨inter, hinter, heq⟩
      have hrest {longest : Addr} {longs : Option SrRt}
          (hlongest : longest.toNat = longs.elim 0 SrRt.maskNumber) :=
        ih (fun r hr => hknown r (List.mem_cons_of_mem route hr))
          (fun r hr => hnot r (List.mem_cons_of_mem route hr)) hlongest
      rw [routeLoop, hinter, matching_cons]
      simp only [Option.bind_eq_bind, Option.bind_some, hne, if_false]
      by_cases hmatch : route.Matches destIp
      · have hcomp : swap32 route.dest &&& swap32 route.mask = swap32 route.mask &&& destIp := hmatch
        simp only [hmatch, hcomp, true_and, if_true, BitVec.le_def, hlongest]
        cases longs with
        | none =>
            rw [if_pos (by exact Nat.zero_le _), scan]
            exact hrest rfl
        | some b =>
            change (if b.maskNumber ≤ route.maskNumber then _ else _) = _
            rw [scan]
            split
            · exact hrest rfl
            · exact hrest hlongest
      · have hcomp : ¬swap32 route.dest &&& swap32 route.mask = swap32 route.mask &&& destIp := hmatch
        simp only [hmatch, hcomp, false_and, if_false]
        exact hrest hlongest

/-- The loop stops at the first route to an interface with the address. -/
theorem routeLoop_named (hknown : ∀ r ∈ table, (srGetInterface sr r.interface).isSome)
    (hnamed : ∃ r ∈ table, Named sr destIp r) (longest : Addr) (longs : Option SrRt) :
    ∃ r ∈ table, Named sr destIp r ∧
      routeLoop sr destIp table longest longs = some (true, some r) := by
  induction table generalizing longest longs with
  | nil =>
      obtain ⟨r, hr, -⟩ := hnamed
      cases hr
  | cons route rest ih =>
      obtain ⟨inter, hinter⟩ := Option.isSome_iff_exists.mp (hknown route List.mem_cons_self)
      rw [routeLoop, hinter]
      simp only [Option.bind_eq_bind, Option.bind_some]
      by_cases heq : destIp = swap32 inter.ip
      · rw [if_pos heq]
        exact ⟨route, List.mem_cons_self, ⟨inter, hinter, heq⟩, rfl⟩
      · have hlater : ∃ r ∈ rest, Named sr destIp r := by
          obtain ⟨r, hr, hr'⟩ := hnamed
          obtain rfl | hr := List.mem_cons.mp hr
          · obtain ⟨inter', hinter', heq'⟩ := hr'
            obtain rfl := Option.some.inj (hinter.symm.trans hinter')
            exact absurd heq' heq
          · exact ⟨r, hr, hr'⟩
        have hmore (longest : Addr) (longs : Option SrRt) :
            ∃ r ∈ route :: rest, Named sr destIp r ∧
              routeLoop sr destIp rest longest longs = some (true, some r) := by
          obtain ⟨r, hr, hr', hloop⟩ :=
            ih (fun r hr => hknown r (List.mem_cons_of_mem route hr)) hlater longest longs
          exact ⟨r, List.mem_cons_of_mem route hr, hr', hloop⟩
        rw [if_neg heq]
        split
        · exact hmore _ _
        · exact hmore _ _

/-- Where no interface of a route has the address, the loop ends with the best route. -/
theorem routeLoop_best (hknown : ∀ r ∈ table, (srGetInterface sr r.interface).isSome)
    (hnot : ∀ r ∈ table, ¬Named sr destIp r) :
    ∃ longs, routeLoop sr destIp table 0 none = some (false, longs) ∧
      (∀ r, longs = some r ↔ BestRoute table destIp r) ∧
      (longs = none ↔ ∀ r ∈ table, ¬r.Matches destIp) := by
  refine ⟨_, routeLoop_scan hknown hnot (by rfl), fun r => scan_eq_some_iff, ?_⟩
  rw [scan_eq_none_iff, List.eq_nil_iff_forall_not_mem]
  simp only [mem_matching, not_and]

theorem BestRoute.mem (h : BestRoute table destIp r) : r ∈ table :=
  (mem_matching.mp (LastMax.mem h)).1

theorem BestRoute.matches (h : BestRoute table destIp r) : r.Matches destIp :=
  (mem_matching.mp (LastMax.mem h)).2

theorem exists_bestRoute (h : ∃ r ∈ table, r.Matches destIp) : ∃ r, BestRoute table destIp r := by
  obtain ⟨r, hr, hmatch⟩ := h
  have hne : scan SrRt.maskNumber none (matching table destIp) ≠ none := by
    rw [ne_eq, scan_eq_none_iff]
    exact List.ne_nil_of_mem (mem_matching.mpr ⟨hr, hmatch⟩)
  obtain ⟨best, hbest⟩ := Option.ne_none_iff_exists'.mp hne
  exact ⟨best, scan_eq_some_iff.mp hbest⟩

/-- The loop ends with a route whose prefix is the longest of all that match. -/
theorem routeLoop_longestPrefix (hv : srVerifyRoutingTable sr = 0)
    (hmasks : ∀ r ∈ sr.routingTable, Contiguous (swap32 r.mask))
    (hnot : ∀ r ∈ sr.routingTable, ∀ inter, srGetInterface sr r.interface = some inter →
      destIp ≠ swap32 inter.ip)
    (hmatch : ∃ r ∈ sr.routingTable, r.Matches destIp) :
    ∃ r ∈ sr.routingTable, routeLoop sr destIp sr.routingTable 0 none = some (false, some r) ∧
      r.Matches destIp ∧
      ∀ r' ∈ sr.routingTable, r'.Matches destIp → r'.prefixLen ≤ r.prefixLen := by
  have hknown : ∀ r ∈ sr.routingTable, (srGetInterface sr r.interface).isSome :=
    fun r hr => interface_of_verified hv hr
  have hnamed : ∀ r ∈ sr.routingTable, ¬Named sr destIp r := by
    rintro r hr ⟨inter, hinter, heq⟩
    exact hnot r hr inter hinter heq
  obtain ⟨longs, hloop, hbest, -⟩ := routeLoop_best hknown hnamed
  obtain ⟨r, hr⟩ := exists_bestRoute hmatch
  rw [(hbest r).mpr hr] at hloop
  refine ⟨r, hr.mem, hloop, hr.matches, ?_⟩
  intro r' hr' hmatch'
  apply (le_iff_prefixLength_le (hmasks r' hr') (hmasks r hr.mem)).mp
  exact LastMax.le hr (mem_matching.mpr ⟨hr', hmatch'⟩)

/-- The route to everywhere. -/
def defaultRoute : SrRt where
  dest := 0
  gw := 0x6401000a
  mask := 0
  interface := eth3.name

/-- A router with two routes to the host. -/
def twoRoutes : SrInstance := srInit [eth3] [hostRoute, defaultRoute]

theorem routeLoop_twoRoutes :
    ∃ r ∈ twoRoutes.routingTable,
      routeLoop twoRoutes (swap32 hostRoute.dest) twoRoutes.routingTable 0 none =
        some (false, some r) ∧
      r.Matches (swap32 hostRoute.dest) ∧
      ∀ r' ∈ twoRoutes.routingTable, r'.Matches (swap32 hostRoute.dest) →
        r'.prefixLen ≤ r.prefixLen := by
  apply routeLoop_longestPrefix
  · decide
  · rintro r hr
    obtain rfl | hr := List.mem_cons.mp hr
    · exact ⟨32, by decide, by decide⟩
    · obtain rfl := List.mem_singleton.mp hr
      exact ⟨0, by decide, by decide⟩
  · intro r hr inter hinter
    obtain rfl := List.mem_singleton.mp (List.mem_of_find?_eq_some hinter)
    decide
  · exact ⟨hostRoute, List.mem_cons_self, by decide⟩

end NetworkStack.Router
