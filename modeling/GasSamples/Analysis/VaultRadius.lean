import GasSamples.Analysis.VaultTargets

/-!
# Which radius governs the vertical part

All sweeps of the search are made with `HorizontalTraceRadius`; `VerticalTraceRadius` is
never read.  Two searches that differ in that radius alone, and of which the layers give
the same hits, agree in every world only if no vertical sweep beyond the first is within
their reach (`verticalRadius_iff`): else there is a world that answers such a sweep with a
hit under the one radius and with none under the other.  In a given world they agree if the
two radii do not separate a vertical sweep that is made.
-/

set_option autoImplicit false

namespace GasSamples.Analysis

open Reactive GasSamples.Model GasSamples.Program GasSamples.Program.CommitCheck

variable {K : Type} [Field K] [LinearOrder K] [SquareRoot K]

/-- Both searches return, with the same answer and, when it is yes, the same targets. -/
def Agree (f g : ℕ → Option (SearchResult K)) : Prop :=
  ∃ r r', Returns f r ∧ Returns g r' ∧ SameTargets r r'

/-- The same search with another radius for the horizontal sweeps. -/
def withRadius (x : VaultSearch K) (radius : K) : VaultSearch K :=
  { x with settings := { x.settings with horizontalTraceRadius := radius } }

/-- Every layer that the one search sweeps gives the same hit in the other. -/
def SameLayers (y y' : VaultSearch K) : Prop :=
  ∀ searched, Returns (searchForward y) searched →
    ∀ i, layer y i ∈ Sum.elim SearchResult.sweeps VerticalStart.sweeps searched →
      trace y (layer y i) = trace y' (layer y' i)

/-- The world answers the sweep differently under the two radii. -/
def Separates (world : SphereTrace K) (ρ ρ' : K) (s : Sweep K) : Prop :=
  world s.start s.stop ρ ≠ world s.start s.stop ρ'

/-- The sweeps after the horizontal ones are made with a radius. -/
def VerticalSweepsWith (radius : K) (r : SearchResult K) : Prop :=
  ∀ s ∈ r.sweeps, (∀ i, s.phase ≠ .horizontal i) → s.radius = radius

/-! ## The horizontal part -/

section Layers

variable {x : VaultSearch K} {ρ ρ' : K} {k : ℕ} {hit : FHitResult K}

omit [LinearOrder K] [SquareRoot K] in
/-- The layers below `n` are among the first `n`. -/
theorem mem_layers {y : VaultSearch K} {i n : ℕ} (hi : i < n) : layer y i ∈ layers y n :=
  List.mem_map.mpr ⟨i, List.mem_range.mpr hi, rfl⟩

variable [IsStrictOrderedRing K]

/-- Up to the one above the first hit, all layers are swept. -/
theorem SameLayers.trace_eq {y y' : VaultSearch K} (hsame : SameLayers y y') (hready : Ready y)
    (hfirst : FirstLayer y k hit) {i : ℕ} (hi : i ≤ k + 1) :
    trace y (layer y i) = trace y' (layer y' i) := by
  have hforward := searchForward_firstLayer hready hfirst
  apply hsame _ hforward i
  have hmem : layer y i ∈ layers y (k + 2) := mem_layers (by omega)
  split
  · exact hmem
  · exact hmem

/-- The first layer is the same. -/
theorem SameLayers.firstLayer (hsame : SameLayers (withRadius x ρ) (withRadius x ρ'))
    (hready : Ready (withRadius x ρ)) (hfirst : FirstLayer (withRadius x ρ) k hit) :
    FirstLayer (withRadius x ρ') k hit where
  hits := (hsame.trace_eq hready hfirst (by omega)).symm.trans hfirst.hits
  misses := fun j hj =>
    (hsame.trace_eq hready hfirst (by omega)).symm.trans (hfirst.misses j hj)
  below := hfirst.below

/-- The room behind the first layer is the same. -/
theorem SameLayers.room_eq (hsame : SameLayers (withRadius x ρ) (withRadius x ρ'))
    (hready : Ready (withRadius x ρ)) (hfirst : FirstLayer (withRadius x ρ) k hit) :
    room (withRadius x ρ') k hit = room (withRadius x ρ) k hit := by
  unfold room available
  rw [← hsame.trace_eq hready hfirst (Nat.le_refl (k + 1))]
  rfl

variable [FloorRing K]

/-- No first layer appears that was not there. -/
theorem SameLayers.firstLayer_iff (hsame : SameLayers (withRadius x ρ) (withRadius x ρ'))
    (hready : Ready (withRadius x ρ)) :
    FirstLayer (withRadius x ρ') k hit ↔ FirstLayer (withRadius x ρ) k hit := by
  refine ⟨fun hfirst' => ?_, hsame.firstLayer hready⟩
  by_cases hlayer : ∃ k hit, FirstLayer (withRadius x ρ) k hit
  · obtain ⟨k₀, hit₀, hfirst⟩ := hlayer
    obtain ⟨rfl, rfl⟩ := (hsame.firstLayer hready hfirst).unique hfirst'
    exact hfirst
  · -- all layers below the topmost one were swept, and found nothing
    have hnone : ∀ k hit, ¬ FirstLayer (withRadius x ρ) k hit :=
      fun k hit hfirst => hlayer ⟨k, hit, hfirst⟩
    obtain ⟨s, hloop, hidx, -, n, -, hcovers, hsweeps⟩ := horizontalLoop_noLayer hnone
    have hforward := hloop.map (afterHorizontal (withRadius x ρ))
    rw [← show searchForward (withRadius x ρ) = _ from funext (searchForward_ready hready)]
      at hforward
    have hkn : k < n := by
      have hlt : (k : K) < n := lt_of_lt_of_le hfirst'.below hcovers
      exact_mod_cast hlt
    have hmem : layer (withRadius x ρ) k ∈ Sum.elim SearchResult.sweeps VerticalStart.sweeps
        (afterHorizontal (withRadius x ρ) s) := by
      simp only [afterHorizontal, if_pos hidx, Sum.elim_inl, hsweeps]
      exact mem_layers hkn
    have htrace := hsame _ hforward k hmem
    have hhits : trace (withRadius x ρ') (layer (withRadius x ρ') k) = some hit := hfirst'.hits
    obtain ⟨k₀, hit₀, hfirst⟩ := exists_firstLayer (x := withRadius x ρ) (i := k)
      (by rw [htrace, hhits]; rfl) hfirst'.below
    exact absurd hfirst (hnone k₀ hit₀)

/-- With the same layers, both radii get to the vertical part or neither does. -/
theorem SameLayers.reachesVertical_iff
    (hsame : SameLayers (withRadius x ρ) (withRadius x ρ')) :
    ReachesVertical (withRadius x ρ') k hit ↔ ReachesVertical (withRadius x ρ) k hit := by
  constructor
  · intro h
    have hready : Ready (withRadius x ρ) := ⟨h.ready.1, h.ready.2⟩
    have hfirst := (hsame.firstLayer_iff hready).mp h.first
    exact ⟨hready, hfirst, by rw [← hsame.room_eq hready hfirst]; exact h.room⟩
  · intro h
    exact ⟨⟨h.ready.1, h.ready.2⟩, hsame.firstLayer h.ready h.first,
      by rw [hsame.room_eq h.ready h.first]; exact h.room⟩

omit [FloorRing K] in
/-- With the same layers, the number of probes is the same for both radii. -/
theorem SameLayers.verticalTraceCount_eq
    (hsame : SameLayers (withRadius x ρ) (withRadius x ρ'))
    (hreach : ReachesVertical (withRadius x ρ) k hit) :
    verticalTraceCount (withRadius x ρ') (verticalStart (withRadius x ρ') k hit) =
      verticalTraceCount (withRadius x ρ) (verticalStart (withRadius x ρ) k hit) := by
  have hroom := hsame.room_eq hreach.ready hreach.first
  show FloatQuotient.div (room (withRadius x ρ') k hit) x.settings.verticalTraceStep =
    FloatQuotient.div (room (withRadius x ρ) k hit) x.settings.verticalTraceStep
  rw [hroom]

end Layers

/-! ## The vertical part in one world -/

section Comparison

variable {y y' : VaultSearch K} {v v' : VerticalStart K} {k m i : ℕ} {hit : FHitResult K}
  {r : SearchResult K}

omit [LinearOrder K] [SquareRoot K] in
/-- The first probes, one by one. -/
theorem mem_probes {n : ℕ} (hi : i < n) : probe y v i ∈ probes y v n :=
  List.mem_map.mpr ⟨i, List.mem_range.mpr hi, rfl⟩

omit [LinearOrder K] [SquareRoot K] in
/-- A probe is not a horizontal sweep. -/
theorem probe_vertical (v : VerticalStart K) (n : ℕ) :
    ∀ i, (probe y v n).phase ≠ .horizontal i := by
  intro i
  simp [probe]

omit [SquareRoot K] in
/-- With the same count and the same answers, the first miss is the same. -/
theorem FirstMiss.of_alike (hmiss : FirstMiss y v m)
    (hcount : verticalTraceCount y' v' = verticalTraceCount y v)
    (halike : ∀ i ≤ m, trace y' (probe y' v' i) = trace y (probe y v i)) :
    FirstMiss y' v' m where
  pos := hmiss.pos
  reached := by
    rw [hcount]
    exact hmiss.reached
  misses := (halike m (Nat.le_refl m)).trans hmiss.misses
  hits j hj hless := by
    rw [halike j (Nat.le_of_lt hless)]
    exact hmiss.hits j hj hless

omit [LinearOrder K] [SquareRoot K] in
/-- With the same answers the edge is the same. -/
theorem edge_eq_of_alike (hstart : y'.jumpOverLocation = y.jumpOverLocation)
    (halike : ∀ i < m, trace y' (probe y' v' i) = trace y (probe y v i)) :
    edge y' v' m = edge y v m := by
  induction m with
  | zero => exact hstart
  | succ m ih =>
    have hedge := ih fun i hi => halike i (Nat.lt_succ_of_lt hi)
    simp only [edge, halike m (Nat.lt_succ_self m), hedge]

variable [FloorRing K]

/-- A probe within the count is made, unless the search has passed before. -/
theorem Outcome.probe_mem [IsStrictOrderedRing K] (h : Outcome y r)
    (hreach : ReachesVertical y k hit)
    (hcount : (verticalTraceCount y (verticalStart y k hit)).atLeast i = true)
    (hbefore : ∀ m < i, ¬ FirstMiss y (verticalStart y k hit) m) :
    probe y (verticalStart y k hit) i ∈ r.sweeps := by
  cases h with
  | refused hrefused => exact absurd hreach.ready hrefused
  | noLayer hready hnone hn hcovers => exact absurd hreach.first (hnone k hit)
  | noRoom hready hfirst hroom =>
    obtain ⟨rfl, rfl⟩ := hreach.first.unique hfirst
    exact absurd hroom (not_lt.mpr hreach.room)
  | noMiss hreach' hstart hfinite hnone hscan =>
    obtain ⟨rfl, rfl⟩ := hreach.first.unique hreach'.first
    subst hscan hstart
    exact List.mem_append_right _ (mem_probes ((lt_probeCount hfinite).mpr hcount))
  | @landed _ m _ _ hreach' hstart hmiss =>
    obtain ⟨rfl, rfl⟩ := hreach.first.unique hreach'.first
    subst hstart
    have hle : i ≤ m := not_lt.mp fun hless => hbefore m hless hmiss
    exact List.mem_append_left _ (List.mem_append_right _ (mem_probes (Nat.lt_succ_of_le hle)))

/-- The last sweep of a search that passes is the one back to the edge. -/
theorem Outcome.refinement_mem (h : Outcome y r) (hreach : ReachesVertical y k hit)
    (hmiss : FirstMiss y (verticalStart y k hit) m) :
    refinement y (edge y (verticalStart y k hit) m) ∈ r.sweeps := by
  cases h with
  | refused hrefused => exact absurd hreach.ready hrefused
  | noLayer hready hnone hn hcovers => exact absurd hreach.first (hnone k hit)
  | noRoom hready hfirst hroom =>
    obtain ⟨rfl, rfl⟩ := hreach.first.unique hfirst
    exact absurd hroom (not_lt.mpr hreach.room)
  | noMiss hreach' hstart hfinite hnone hscan =>
    obtain ⟨rfl, rfl⟩ := hreach.first.unique hreach'.first
    subst hstart
    exact absurd hmiss (hnone m)
  | landed hreach' hstart hmiss' =>
    obtain ⟨rfl, rfl⟩ := hreach.first.unique hreach'.first
    subst hstart
    rw [hmiss.unique hmiss']
    exact List.mem_append_right _ (List.mem_singleton.mpr rfl)

variable [IsStrictOrderedRing K] {x : VaultSearch K} {ρ ρ' : K}

/-- With a first miss the search returns. -/
theorem returns_of_firstMiss (hreach : ReachesVertical y k hit)
    (hmiss : FirstMiss y (verticalStart y k hit) m) :
    ∃ r, Returns (commitCheck y) r ∧ r.toCommitResult = ⟨true, landing y (verticalStart y k hit),
      refined y (edge y (verticalStart y k hit) m)⟩ := by
  rcases commitCheck_outcome (x := y) with ⟨r, hr, houtcome⟩ | ⟨k', hit', hreach', -, hnone⟩
  · exact ⟨r, hr, houtcome.commitResult_of_firstMiss hreach hmiss⟩
  · obtain ⟨rfl, rfl⟩ := hreach.first.unique hreach'.first
    exact absurd hmiss (hnone m)

/-- If neither search has a first miss and the one returns, the other one fails as it does. -/
theorem SameLayers.agree_of_noMiss (hsame : SameLayers (withRadius x ρ) (withRadius x ρ'))
    (hr : Returns (commitCheck (withRadius x ρ)) r)
    (hnone : ∀ k hit m, ReachesVertical (withRadius x ρ) k hit →
      ¬ FirstMiss (withRadius x ρ) (verticalStart (withRadius x ρ) k hit) m)
    (hnone' : ∀ k hit m, ReachesVertical (withRadius x ρ') k hit →
      ¬ FirstMiss (withRadius x ρ') (verticalStart (withRadius x ρ') k hit) m) :
    Agree (commitCheck (withRadius x ρ)) (commitCheck (withRadius x ρ')) := by
  have hreturns : ¬ Hangs (withRadius x ρ') := by
    rintro ⟨k, hit, hreach', hinfinite, -⟩
    have hreach := hsame.reachesVertical_iff.mp hreach'
    rw [hsame.verticalTraceCount_eq hreach] at hinfinite
    exact hr.not_diverges
      (commitCheck_hangs ⟨k, hit, hreach, hinfinite, fun m => hnone k hit m hreach⟩)
  obtain ⟨r', hr', houtcome'⟩ := commitCheck_outcome.resolve_right hreturns
  exact ⟨r, r', hr, hr', sameTargets_of_failed ((Outcome.of_returns hr).passed_of_noMiss hnone)
    (houtcome'.passed_of_noMiss hnone')⟩

section Alike

variable (hr : Returns (commitCheck (withRadius x ρ)) r)
  (halike : ∀ s ∈ r.sweeps, (∀ i, s.phase ≠ .horizontal i) → ¬ Separates x.world ρ ρ' s)
include hr halike

/-- Where the radii separate no sweep of the vertical part, a probe that is made finds the same
under both. -/
theorem trace_probe_of_not_separates (hreach : ReachesVertical (withRadius x ρ) k hit)
    (hcount : (verticalTraceCount (withRadius x ρ)
      (verticalStart (withRadius x ρ) k hit)).atLeast i = true)
    (hbefore : ∀ m < i, ¬ FirstMiss (withRadius x ρ) (verticalStart (withRadius x ρ) k hit) m) :
    trace (withRadius x ρ) (probe (withRadius x ρ) (verticalStart (withRadius x ρ) k hit) i) =
      trace (withRadius x ρ')
        (probe (withRadius x ρ') (verticalStart (withRadius x ρ') k hit) i) :=
  not_not.mp (halike _ ((Outcome.of_returns hr).probe_mem hreach hcount hbefore)
    (probe_vertical _ i))

/-- Then a search that passes with the one radius passes with the other, with the same
targets. -/
theorem SameLayers.agree_of_firstMiss (hsame : SameLayers (withRadius x ρ) (withRadius x ρ'))
    (hreach : ReachesVertical (withRadius x ρ) k hit)
    (hmiss : FirstMiss (withRadius x ρ) (verticalStart (withRadius x ρ) k hit) m) :
    Agree (commitCheck (withRadius x ρ)) (commitCheck (withRadius x ρ')) := by
  have houtcome := Outcome.of_returns hr
  have hreach' := hsame.reachesVertical_iff.mpr hreach
  have hprobes : ∀ i ≤ m,
      trace (withRadius x ρ')
          (probe (withRadius x ρ') (verticalStart (withRadius x ρ') k hit) i) =
        trace (withRadius x ρ)
          (probe (withRadius x ρ) (verticalStart (withRadius x ρ) k hit) i) := by
    intro i hi
    refine (trace_probe_of_not_separates hr halike hreach (atLeast_of_le hmiss.reached hi)
      fun j hj hfirst => ?_).symm
    have heq := hmiss.unique hfirst
    omega
  have hmiss' := hmiss.of_alike (hsame.verticalTraceCount_eq hreach) hprobes
  obtain ⟨r', hr', hresult'⟩ := returns_of_firstMiss hreach' hmiss'
  refine ⟨r, r', hr, hr', (sameTargets_iff_of_passed
    (houtcome.commitResult_of_firstMiss hreach hmiss) hresult').mpr ⟨?_, ?_⟩⟩
  · simp only [landing, hprobes 0 (Nat.zero_le m)]
    rfl
  · have hedge : edge (withRadius x ρ') (verticalStart (withRadius x ρ') k hit) m =
        edge (withRadius x ρ) (verticalStart (withRadius x ρ) k hit) m :=
      edge_eq_of_alike rfl fun i hi => hprobes i (Nat.le_of_lt hi)
    have hlast : trace (withRadius x ρ) (refinement (withRadius x ρ)
          (edge (withRadius x ρ) (verticalStart (withRadius x ρ) k hit) m)) =
        trace (withRadius x ρ') (refinement (withRadius x ρ')
          (edge (withRadius x ρ) (verticalStart (withRadius x ρ) k hit) m)) :=
      not_not.mp (halike _ (houtcome.refinement_mem hreach hmiss) (by simp [refinement]))
    rw [hedge]
    simp only [refined, hlast]

/-- If the two radii separate no sweep of the vertical part, the searches agree. -/
theorem SameLayers.agree_of_not_separates
    (hsame : SameLayers (withRadius x ρ) (withRadius x ρ')) :
    Agree (commitCheck (withRadius x ρ)) (commitCheck (withRadius x ρ')) := by
  by_cases hmiss : ∃ k hit m, ReachesVertical (withRadius x ρ) k hit ∧
      FirstMiss (withRadius x ρ) (verticalStart (withRadius x ρ) k hit) m
  · obtain ⟨k, hit, m, hreach, hmiss⟩ := hmiss
    exact SameLayers.agree_of_firstMiss hr halike hsame hreach hmiss
  · have hnone : ∀ k hit m, ReachesVertical (withRadius x ρ) k hit →
        ¬ FirstMiss (withRadius x ρ) (verticalStart (withRadius x ρ) k hit) m :=
      fun k hit m hreach hm => hmiss ⟨k, hit, m, hreach, hm⟩
    refine hsame.agree_of_noMiss hr hnone fun k hit m hreach' hm' => ?_
    have hreach := hsame.reachesVertical_iff.mp hreach'
    have hcount := hsame.verticalTraceCount_eq hreach
    refine hnone k hit m hreach (hm'.of_alike hcount.symm fun i hi => ?_)
    refine trace_probe_of_not_separates hr halike hreach ?_ fun j _ => hnone k hit j hreach
    rw [← hcount]
    exact atLeast_of_le hm'.reached hi

end Alike

/-- If no probe after the first one is within the count, the searches agree. -/
theorem SameLayers.agree_of_count (hsame : SameLayers (withRadius x ρ) (withRadius x ρ'))
    (hcount : ∀ k hit, ReachesVertical (withRadius x ρ) k hit → ∀ i, 1 ≤ i →
      (verticalTraceCount (withRadius x ρ) (verticalStart (withRadius x ρ) k hit)).atLeast i =
        false) :
    Agree (commitCheck (withRadius x ρ)) (commitCheck (withRadius x ρ')) := by
  have hreturns : ¬ Hangs (withRadius x ρ) := by
    rintro ⟨k, hit, hreach, hinfinite, -⟩
    have hone := hcount k hit hreach 1 (Nat.le_refl 1)
    rw [hinfinite] at hone
    exact absurd hone (by simp [FloatQuotient.atLeast])
  obtain ⟨r, hr, -⟩ := commitCheck_outcome.resolve_right hreturns
  apply hsame.agree_of_noMiss hr
  · intro k hit m hreach hmiss
    have hreached := hmiss.reached
    rw [hcount k hit hreach m hmiss.pos] at hreached
    exact absurd hreached (by decide)
  · intro k hit m hreach' hmiss
    have hreach := hsame.reachesVertical_iff.mp hreach'
    have hreached := hmiss.reached
    rw [hsame.verticalTraceCount_eq hreach, hcount k hit hreach m hmiss.pos] at hreached
    exact absurd hreached (by decide)

end Comparison

/-! ## The vertical part in every world -/

section Worlds

variable {x : VaultSearch K} {ρ ρ' : K} {k i : ℕ} {hit : FHitResult K}

/-- A hit at a point. -/
def hitAt (p : FVector K) : FHitResult K := ⟨p, p, ⟨0, 0, 1⟩⟩

/-- The same search in another world. -/
def inWorld (x : VaultSearch K) (world : SphereTrace K) : VaultSearch K := { x with world := world }

/-- A world in which the bottom layer hits at `p` and the next one at `q`; all other sweeps
are answered by their radius. -/
def twoLayers (x : VaultSearch K) (p q : FVector K) (answer : K → Option (FHitResult K)) :
    SphereTrace K := fun start _ radius =>
  if start = x.startLocation then some (hitAt p)
  else if start = (layer x 1).start then some (hitAt q)
  else answer radius

/-- The layers lie apart from each other. -/
def LayersApart (x : VaultSearch K) : Prop :=
  x.settings.horizontalTraceStep • x.upVector ≠ ⟨0, 0, 0⟩

omit [LinearOrder K] [SquareRoot K] in
/-- The bottom layer starts at the character. -/
theorem layer_zero_start : (layer x 0).start = x.startLocation := by
  ext <;> simp [layer]

omit [LinearOrder K] [SquareRoot K] in
/-- Layers that do not lie apart are swept from the same point. -/
theorem layer_start_of_not_apart (hflat : ¬ LayersApart x) :
    (layer x i).start = x.startLocation := by
  have hzero := FVector.ext_iff.mp (not_not.mp hflat)
  simp only [FVector.smul_x, FVector.smul_y, FVector.smul_z] at hzero
  obtain ⟨hx, hy, hz⟩ := hzero
  ext
  · simp [layer, mul_left_comm _ (i : K), hx]
  · simp [layer, mul_left_comm _ (i : K), hy]
  · simp [layer, mul_left_comm _ (i : K), hz]

omit [LinearOrder K] [SquareRoot K] in
/-- The layer above the bottom one starts elsewhere. -/
theorem layer_one_start_ne (hapart : LayersApart x) : (layer x 1).start ≠ x.startLocation := by
  intro heq
  apply hapart
  have hcoords := FVector.ext_iff.mp heq
  simp only [layer, Nat.cast_one, FVector.add_x, FVector.add_y, FVector.add_z, FVector.smul_x,
    FVector.smul_y, FVector.smul_z, one_mul, add_eq_left] at hcoords
  exact FVector.ext hcoords.1 hcoords.2.1 hcoords.2.2

/-- The distance in the plane does not depend on the direction. -/
theorem dist2D_comm (a b : FVector K) : FVector.dist2D a b = FVector.dist2D b a := by
  unfold FVector.dist2D
  congr 1
  ring

/-- The distance to a point that is shifted along X. -/
theorem dist2D_shift (a : FVector K) {d z : K} (hd : 0 ≤ d) :
    FVector.dist2D a ⟨a.x + d, a.y, z⟩ = d := by
  unfold FVector.dist2D
  rw [show (a.x + d - a.x) * (a.x + d - a.x) + (a.y - a.y) * (a.y - a.y) = d * d by ring]
  exact SquareRoot.sqrt_mul_self d hd

/-- Without layers that lie apart there is no room behind a hit. -/
theorem room_of_not_apart (hflat : ¬ LayersApart x) (hfirst : FirstLayer x k hit) :
    room x k hit = 0 := by
  have habove : trace x (layer x (k + 1)) = some hit := by
    rw [← hfirst.hits]
    simp only [trace, layer_start_of_not_apart hflat]
    unfold layer
    simp only [show ∀ i : ℕ, x.startLocation +
      x.settings.horizontalTraceStep • ((i : K) • x.upVector) = x.startLocation from
        fun i => layer_start_of_not_apart (i := i) hflat]
  rw [room, available, habove, Option.map_some, Option.getD_some,
    layer_start_of_not_apart hflat, dist2D_comm, sub_self]

variable [IsStrictOrderedRing K]

/-- Without layers that lie apart, or with a negative step, no probe after the first one is
within the count. -/
theorem atLeast_eq_false (hreach : ReachesVertical x k hit)
    (h : LayersApart x → x.settings.verticalTraceStep < 0) (hi : 1 ≤ i) :
    (verticalTraceCount x (verticalStart x k hit)).atLeast i = false := by
  have hpos : (0 : K) < i := by exact_mod_cast hi
  have hcount : verticalTraceCount x (verticalStart x k hit) =
      .div (room x k hit) x.settings.verticalTraceStep := rfl
  by_cases hapart : LayersApart x
  · have hstep := h hapart
    have hquotient : room x k hit / x.settings.verticalTraceStep ≤ 0 :=
      div_nonpos_of_nonneg_of_nonpos hreach.room (le_of_lt hstep)
    rw [hcount, FloatQuotient.div_of_ne_zero _ (ne_of_lt hstep)]
    exact decide_eq_false (not_le.mpr (lt_of_le_of_lt hquotient hpos))
  · rw [hcount, room_of_not_apart hapart hreach.first]
    by_cases hstep : x.settings.verticalTraceStep = 0
    · rw [hstep]
      simp [FloatQuotient.div, FloatQuotient.atLeast]
    · rw [FloatQuotient.div_of_ne_zero _ hstep, zero_div]
      exact decide_eq_false (not_le.mpr hpos)

section TwoLayers

variable {p q : FVector K} {answer : K → Option (FHitResult K)}

omit [SquareRoot K] in
/-- The bottom layer is the first one to be hit. -/
theorem firstLayer_twoLayers (hbelow : 1 < x.settings.horizontalTraceCount) :
    FirstLayer (withRadius (inWorld x (twoLayers x p q answer)) ρ) 0 (hitAt p) where
  hits := if_pos (layer_zero_start (x := x))
  misses j hj := absurd hj (Nat.not_lt_zero j)
  below := by
    have hcount : (0 : K) < x.settings.horizontalTraceCount - 1 := sub_pos.mpr hbelow
    simpa [withRadius, inWorld] using hcount

omit [SquareRoot K] [IsStrictOrderedRing K] in
/-- The layer above is hit at `q`. -/
theorem trace_twoLayers_above (hapart : LayersApart x) :
    trace (withRadius (inWorld x (twoLayers x p q answer)) ρ)
      (layer (withRadius (inWorld x (twoLayers x p q answer)) ρ) 1) = some (hitAt q) := by
  show twoLayers x p q answer (layer x 1).start (layer x 1).stop ρ = some (hitAt q)
  rw [twoLayers, if_neg (layer_one_start_ne hapart), if_pos rfl]

omit [SquareRoot K] [IsStrictOrderedRing K] in
/-- A sweep that starts beyond both layers is answered by its radius. -/
theorem trace_twoLayers_beyond {s : Sweep K} (hhere : x.startLocation.x < s.start.x)
    (habove : (layer x 1).start.x < s.start.x) :
    trace (withRadius (inWorld x (twoLayers x p q answer)) ρ) s = answer s.radius := by
  show twoLayers x p q answer s.start s.stop s.radius = answer s.radius
  rw [twoLayers, if_neg, if_neg]
  · intro heq
    rw [heq] at habove
    exact lt_irrefl _ habove
  · intro heq
    rw [heq] at hhere
    exact lt_irrefl _ hhere

omit [SquareRoot K] [IsStrictOrderedRing K] in
/-- Under a radius that is answered with a hit, no sweep misses. -/
theorem trace_twoLayers_ne_none {s : Sweep K} (hanswer : answer s.radius ≠ none) :
    trace (withRadius (inWorld x (twoLayers x p q answer)) ρ) s ≠ none := by
  show twoLayers x p q answer s.start s.stop s.radius ≠ none
  unfold twoLayers
  split
  · simp
  · split
    · simp
    · exact hanswer

omit [IsStrictOrderedRing K] in
/-- The room behind the bottom layer. -/
theorem room_twoLayers (hapart : LayersApart x) :
    room (withRadius (inWorld x (twoLayers x p q answer)) ρ) 0 (hitAt p) =
      FVector.dist2D q (layer x 1).start - FVector.dist2D x.startLocation p := by
  rw [room, available, trace_twoLayers_above hapart]
  rfl

/-- The layers that are swept give the same hits under every radius. -/
theorem sameLayers_twoLayers (hready : Ready x) (hbelow : 1 < x.settings.horizontalTraceCount)
    (hapart : LayersApart x) :
    SameLayers (withRadius (inWorld x (twoLayers x p q answer)) ρ)
      (withRadius (inWorld x (twoLayers x p q answer)) ρ') := by
  intro searched hsearched i hmem
  have hforward := searchForward_firstLayer (x := withRadius (inWorld x (twoLayers x p q answer)) ρ)
    ⟨hready.1, hready.2⟩ (firstLayer_twoLayers hbelow)
  have hlayers : i < 2 := by
    rw [hsearched.unique hforward] at hmem
    have hmem' : layer (withRadius (inWorld x (twoLayers x p q answer)) ρ) i ∈
        layers (withRadius (inWorld x (twoLayers x p q answer)) ρ) 2 := by
      split at hmem <;> exact hmem
    obtain ⟨j, hj, heq⟩ := List.mem_map.mp hmem'
    have hphase : j = i := SweepPhase.horizontal.inj (congrArg Sweep.phase heq)
    rw [← hphase]
    exact List.mem_range.mp hj
  obtain rfl | rfl : i = 0 ∨ i = 1 := by omega
  · exact (firstLayer_twoLayers hbelow).hits.trans (firstLayer_twoLayers hbelow).hits.symm
  · rw [trace_twoLayers_above hapart, trace_twoLayers_above hapart]

end TwoLayers

/-- With the step zero there is a world in which the search hangs, whatever the radius. -/
theorem exists_hangs (hready : Ready x) (hbelow : 1 < x.settings.horizontalTraceCount)
    (hapart : LayersApart x) (hstep : x.settings.verticalTraceStep = 0) (ρ ρ' : K) :
    ∃ world, SameLayers (withRadius (inWorld x world) ρ) (withRadius (inWorld x world) ρ') ∧
      Diverges (commitCheck (withRadius (inWorld x world) ρ)) := by
  -- everything is solid, and the layer above the bottom one is hit a little further away
  obtain ⟨q, hq⟩ : ∃ q : FVector K, q = ⟨(layer x 1).start.x + 1, (layer x 1).start.y, 0⟩ :=
    ⟨_, rfl⟩
  refine ⟨twoLayers x x.startLocation q fun _ => some (hitAt q),
    sameLayers_twoLayers hready hbelow hapart, commitCheck_hangs ?_⟩
  have hhere : FVector.dist2D x.startLocation x.startLocation = 0 := by
    have hshift := dist2D_shift x.startLocation (z := x.startLocation.z) (le_refl (0 : K))
    rwa [add_zero] at hshift
  have hroom : room (withRadius (inWorld x (twoLayers x x.startLocation q fun _ =>
      some (hitAt q))) ρ) 0 (hitAt x.startLocation) = 1 := by
    rw [room_twoLayers hapart, dist2D_comm, hq, dist2D_shift _ zero_le_one, hhere, sub_zero]
  refine ⟨0, hitAt x.startLocation, ⟨⟨hready.1, hready.2⟩, firstLayer_twoLayers hbelow, ?_⟩, ?_,
    fun m hmiss => ?_⟩
  · rw [hroom]
    exact zero_le_one
  · show FloatQuotient.div (room (withRadius (inWorld x _) ρ) 0 (hitAt x.startLocation))
      x.settings.verticalTraceStep = .infinity true
    rw [hroom, hstep]
    simp [FloatQuotient.div]
  · exact trace_twoLayers_ne_none (by simp) hmiss.misses

/-- Two hits of the layers that leave room for one step, of which the second probe then starts
beyond both layers. -/
theorem exists_room_ahead (x : VaultSearch K) (hstep : 0 < x.settings.verticalTraceStep) :
    ∃ p q : FVector K, FVector.dist2D q (layer x 1).start - FVector.dist2D x.startLocation p =
        x.settings.verticalTraceStep ∧
      ∀ start, start = p.x + |p.z - (layer x 1).start.z| * x.upVector.x +
          x.settings.verticalTraceStep * x.forwardVector.x →
        x.startLocation.x < start ∧ (layer x 1).start.x < start := by
  -- the probe goes `e` from `p` on along X, and `p` is `u` ahead of the character
  obtain ⟨e, he⟩ : ∃ e, e = |x.startLocation.z - (layer x 1).start.z| * x.upVector.x +
    x.settings.verticalTraceStep * x.forwardVector.x := ⟨_, rfl⟩
  obtain ⟨u, hu⟩ : ∃ u, u = |(layer x 1).start.x - x.startLocation.x| + |e| + 1 := ⟨_, rfl⟩
  have hlayer := le_abs_self ((layer x 1).start.x - x.startLocation.x)
  have hshift := abs_nonneg ((layer x 1).start.x - x.startLocation.x)
  have hback := neg_abs_le e
  have hforth := abs_nonneg e
  refine ⟨⟨x.startLocation.x + u, x.startLocation.y, x.startLocation.z⟩,
    ⟨(layer x 1).start.x + (u + x.settings.verticalTraceStep), (layer x 1).start.y, 0⟩, ?_, ?_⟩
  · rw [dist2D_comm, dist2D_shift _ (by linarith), dist2D_shift _ (by linarith),
      add_sub_cancel_left]
  · intro start hstart
    simp only [add_assoc] at hstart
    rw [← he] at hstart
    constructor <;> linarith

section Separating

variable {p q : FVector K} {answer : K → Option (FHitResult K)}

/-- The two layers, behind which the radius `ρ` finds nothing and every other one a hit. -/
def separatingWorld (x : VaultSearch K) (p q : FVector K) (ρ : K) : SphereTrace K :=
  twoLayers x p q fun radius => if radius = ρ then none else some (hitAt q)

/-- A search of the two layers gets to the vertical part if there is room for one step. -/
theorem reachesVertical_twoLayers (hready : Ready x)
    (hbelow : 1 < x.settings.horizontalTraceCount) (hapart : LayersApart x)
    (hstep : 0 < x.settings.verticalTraceStep)
    (hdistances : FVector.dist2D q (layer x 1).start - FVector.dist2D x.startLocation p =
      x.settings.verticalTraceStep) :
    ReachesVertical (withRadius (inWorld x (twoLayers x p q answer)) ρ) 0 (hitAt p) := by
  refine ⟨⟨hready.1, hready.2⟩, firstLayer_twoLayers hbelow, ?_⟩
  rw [room_twoLayers hapart, hdistances]
  exact le_of_lt hstep

omit [IsStrictOrderedRing K] in
/-- Under `ρ` the second probe is within the count, and finds nothing. -/
theorem firstMiss_separatingWorld (hapart : LayersApart x)
    (hstep : 0 < x.settings.verticalTraceStep)
    (hdistances : FVector.dist2D q (layer x 1).start - FVector.dist2D x.startLocation p =
      x.settings.verticalTraceStep)
    (hbeyond : ∀ start, start = p.x + |p.z - (layer x 1).start.z| * x.upVector.x +
        x.settings.verticalTraceStep * x.forwardVector.x →
      x.startLocation.x < start ∧ (layer x 1).start.x < start) :
    FirstMiss (withRadius (inWorld x (separatingWorld x p q ρ)) ρ)
      (verticalStart (withRadius (inWorld x (separatingWorld x p q ρ)) ρ) 0 (hitAt p)) 1 := by
  refine ⟨Nat.le_refl 1, ?_, ?_, fun j hj hless => absurd hless (by omega)⟩
  · have hroom : room (withRadius (inWorld x (separatingWorld x p q ρ)) ρ) 0 (hitAt p) =
        x.settings.verticalTraceStep := by
      rw [separatingWorld, room_twoLayers hapart, hdistances]
    show (FloatQuotient.div (room (withRadius (inWorld x (separatingWorld x p q ρ)) ρ) 0 (hitAt p))
      x.settings.verticalTraceStep).atLeast 1 = true
    rw [hroom, FloatQuotient.div_of_ne_zero _ (ne_of_gt hstep), div_self (ne_of_gt hstep)]
    simp [FloatQuotient.atLeast]
  · have hanswer : ∀ s : Sweep K, x.startLocation.x < s.start.x →
        (layer x 1).start.x < s.start.x → s.radius = ρ →
        trace (withRadius (inWorld x (separatingWorld x p q ρ)) ρ) s = none := by
      intro s hs hs' hradius
      rw [separatingWorld, trace_twoLayers_beyond hs hs', if_pos hradius]
    obtain ⟨hhere, habove⟩ := hbeyond (probe (withRadius (inWorld x (separatingWorld x p q ρ)) ρ)
      (verticalStart (withRadius (inWorld x (separatingWorld x p q ρ)) ρ) 0 (hitAt p)) 1).start.x
      (by simp [probe, verticalStart, layer, hitAt, withRadius, inWorld])
    exact hanswer _ hhere habove rfl

omit [IsStrictOrderedRing K] in
/-- Under every other radius all sweeps hit. -/
theorem not_firstMiss_separatingWorld (hne : ρ ≠ ρ') (m : ℕ) :
    ¬ FirstMiss (withRadius (inWorld x (separatingWorld x p q ρ)) ρ')
      (verticalStart (withRadius (inWorld x (separatingWorld x p q ρ)) ρ') 0 (hitAt p)) m := by
  intro hm
  have hhit : (if ρ' = ρ then none else some (hitAt q)) ≠ none := by
    rw [if_neg hne.symm]
    simp
  exact trace_twoLayers_ne_none hhit hm.misses

end Separating

/-- With a positive step there is a world, with the same layers under both radii, in which the
search passes with the one radius and fails with the other. -/
theorem exists_separating (hready : Ready x) (hbelow : 1 < x.settings.horizontalTraceCount)
    (hapart : LayersApart x) (hstep : 0 < x.settings.verticalTraceStep) (hne : ρ ≠ ρ')
    [FloorRing K] :
    ∃ world, SameLayers (withRadius (inWorld x world) ρ) (withRadius (inWorld x world) ρ') ∧
      ¬ Agree (commitCheck (withRadius (inWorld x world) ρ))
        (commitCheck (withRadius (inWorld x world) ρ')) := by
  obtain ⟨p, q, hdistances, hbeyond⟩ := exists_room_ahead x hstep
  have hmiss := firstMiss_separatingWorld (ρ := ρ) hapart hstep hdistances hbeyond
  have hreach : ∀ radius,
      ReachesVertical (withRadius (inWorld x (separatingWorld x p q ρ)) radius) 0 (hitAt p) :=
    fun _ => reachesVertical_twoLayers hready hbelow hapart hstep hdistances
  refine ⟨separatingWorld x p q ρ, sameLayers_twoLayers hready hbelow hapart, ?_⟩
  obtain ⟨r, hr, hresult⟩ := returns_of_firstMiss (hreach ρ) hmiss
  rintro ⟨s, s', hs, hs', hagree⟩
  have hpassed : s.passed = true := by
    rw [← hr.unique hs]
    exact congrArg CommitResult.passed hresult
  have hfailed : s'.passed = false := by
    refine (Outcome.of_returns hs').passed_of_noMiss fun k hit m hreach' hm => ?_
    obtain ⟨rfl, rfl⟩ := (hreach ρ').first.unique hreach'.first
    exact not_firstMiss_separatingWorld hne m hm
  rw [hagree.passed, hfailed] at hpassed
  exact absurd hpassed (by decide)

/-- **The radius does not matter exactly if no probe after the first one can decide.** -/
theorem agree_inWorld_iff [FloorRing K] (x : VaultSearch K) (ρ ρ' : K) :
    (∀ world, SameLayers (withRadius (inWorld x world) ρ) (withRadius (inWorld x world) ρ') →
      Agree (commitCheck (withRadius (inWorld x world) ρ))
        (commitCheck (withRadius (inWorld x world) ρ'))) ↔
      (Ready x → 1 < x.settings.horizontalTraceCount → LayersApart x →
        x.settings.verticalTraceStep < 0 ∨ 0 < x.settings.verticalTraceStep ∧ ρ = ρ') := by
  constructor
  · intro hagree hready hbelow hapart
    rcases lt_trichotomy x.settings.verticalTraceStep 0 with hneg | hzero | hpos
    · exact Or.inl hneg
    · obtain ⟨world, hsame, hdiverges⟩ := exists_hangs hready hbelow hapart hzero ρ ρ'
      obtain ⟨r, r', hr, -⟩ := hagree world hsame
      exact absurd hdiverges hr.not_diverges
    · refine Or.inr ⟨hpos, ?_⟩
      by_contra hne
      obtain ⟨world, hsame, hdiffer⟩ := exists_separating hready hbelow hapart hpos hne
      exact hdiffer (hagree world hsame)
  · intro hcondition world hsame
    by_cases hsearch : Ready x ∧ 1 < x.settings.horizontalTraceCount ∧
        0 < x.settings.verticalTraceStep ∧ ρ = ρ'
    · obtain ⟨-, -, hpos, rfl⟩ := hsearch
      obtain ⟨r, hr, -⟩ := commitCheck_outcome_of_step
        (x := withRadius (inWorld x world) ρ) (ne_of_gt hpos)
      exact ⟨r, r, hr, hr, rfl, fun _ => ⟨rfl, rfl⟩⟩
    · refine hsame.agree_of_count fun k hit hreach i hi => atLeast_eq_false hreach ?_ hi
      intro hapart
      have hready : Ready x := ⟨hreach.ready.1, hreach.ready.2⟩
      have hbelow : 1 < x.settings.horizontalTraceCount := by
        have hlayer : (k : K) < x.settings.horizontalTraceCount - 1 := hreach.first.below
        have hk : (0 : K) ≤ k := Nat.cast_nonneg k
        linarith
      refine (hcondition hready hbelow hapart).resolve_right fun hsame => ?_
      exact hsearch ⟨hready, hbelow, hsame.1, hsame.2⟩

end Worlds

/-! ## The radius of the sweeps -/

section Radius

/-- Some probe is made. -/
def Probes (y : VaultSearch K) : Prop :=
  ∃ k hit, ReachesVertical y k hit ∧
    (verticalTraceCount y (verticalStart y k hit)).atLeast 0 = true

variable {y : VaultSearch K} {r : SearchResult K}

omit [LinearOrder K] [SquareRoot K] in
/-- The layers are swept with `HorizontalTraceRadius`. -/
theorem radius_of_mem_layers {s : Sweep K} {n : ℕ} (hs : s ∈ layers y n) :
    s.radius = y.settings.horizontalTraceRadius ∧ ∃ i, s.phase = .horizontal i := by
  obtain ⟨i, -, rfl⟩ := List.mem_map.mp hs
  exact ⟨rfl, i, rfl⟩

omit [LinearOrder K] [SquareRoot K] in
/-- The probes are swept with `HorizontalTraceRadius` too. -/
theorem radius_of_mem_probes {s : Sweep K} {v : VerticalStart K} {n : ℕ}
    (hs : s ∈ probes y v n) : s.radius = y.settings.horizontalTraceRadius := by
  obtain ⟨i, -, rfl⟩ := List.mem_map.mp hs
  rfl

variable [FloorRing K]

/-- All sweeps of the search are made with the radius of the horizontal ones. -/
theorem Outcome.radius_eq (h : Outcome y r) :
    ∀ s ∈ r.sweeps, s.radius = y.settings.horizontalTraceRadius := by
  intro s hs
  cases h with
  | refused hrefused => exact absurd hs (by simp)
  | noLayer hready hnone hn hcovers => exact (radius_of_mem_layers hs).1
  | noRoom hready hfirst hroom => exact (radius_of_mem_layers hs).1
  | noMiss hreach hstart hfinite hnone hscan =>
    subst hscan hstart
    rcases List.mem_append.mp hs with hs | hs
    · exact (radius_of_mem_layers hs).1
    · exact radius_of_mem_probes hs
  | landed hreach hstart hmiss =>
    subst hstart
    rcases List.mem_append.mp hs with hs | hs
    · rcases List.mem_append.mp hs with hs | hs
      · exact (radius_of_mem_layers hs).1
      · exact radius_of_mem_probes hs
    · rw [List.mem_singleton] at hs
      subst hs
      rfl

variable [IsStrictOrderedRing K]

/-- There is a sweep after the horizontal ones exactly if some probe is made. -/
theorem Outcome.exists_vertical_iff (h : Outcome y r) :
    (∃ s ∈ r.sweeps, ∀ i, s.phase ≠ .horizontal i) ↔ Probes y := by
  -- every outcome records the sweeps of some layers first, and those are horizontal
  have hlayers : ∀ n, ¬ ∃ s ∈ layers y n, ∀ i, s.phase ≠ .horizontal i := by
    rintro n ⟨s, hs, hphase⟩
    obtain ⟨i, hi⟩ := (radius_of_mem_layers hs).2
    exact hphase i hi
  cases h with
  | refused hrefused =>
    apply iff_of_false (by simp)
    rintro ⟨k, hit, hreach, -⟩
    exact hrefused hreach.ready
  | noLayer hready hnone hn hcovers =>
    apply iff_of_false (hlayers _)
    rintro ⟨k, hit, hreach, -⟩
    exact hnone k hit hreach.first
  | noRoom hready hfirst hroom =>
    apply iff_of_false (hlayers _)
    rintro ⟨k, hit, hreach, -⟩
    obtain ⟨rfl, rfl⟩ := hreach.first.unique hfirst
    exact absurd hroom (not_lt.mpr hreach.room)
  | @noMiss k hit v scan hreach hstart hfinite hnone hscan =>
    subst hscan hstart
    by_cases hcount : (verticalTraceCount y (verticalStart y k hit)).atLeast 0 = true
    · refine iff_of_true ⟨probe y (verticalStart y k hit) 0, ?_, probe_vertical _ 0⟩
        ⟨k, hit, hreach, hcount⟩
      exact List.mem_append_right _ (mem_probes ((lt_probeCount hfinite).mpr hcount))
    · have hzero : probeCount y (verticalStart y k hit) = 0 := if_neg hcount
      apply iff_of_false
      · rw [hzero]
        simpa [probing, verticalStart, probes] using hlayers (k + 2)
      · rintro ⟨k', hit', hreach', hcount'⟩
        obtain ⟨rfl, rfl⟩ := hreach.first.unique hreach'.first
        exact hcount hcount'
  | @landed k m hit v hreach hstart hmiss =>
    subst hstart
    refine iff_of_true ⟨probe y (verticalStart y k hit) 0, ?_, probe_vertical _ 0⟩
      ⟨k, hit, hreach, atLeast_of_le hmiss.reached (Nat.zero_le m)⟩
    exact List.mem_append_left _ (List.mem_append_right _ (mem_probes (Nat.succ_pos m)))

/-- The sweeps after the horizontal ones are made with a radius exactly if it is that of the
horizontal ones, or there are none. -/
theorem verticalSweepsWith_iff (h : Outcome y r) (radius : K) :
    VerticalSweepsWith radius r ↔
      (Probes y → y.settings.horizontalTraceRadius = radius) := by
  rw [← h.exists_vertical_iff]
  constructor
  · rintro hall ⟨s, hs, hphase⟩
    exact (h.radius_eq s hs).symm.trans (hall s hs hphase)
  · intro hradius s hs hphase
    exact (h.radius_eq s hs).trans (hradius ⟨s, hs, hphase⟩)

/-- **The vertical part of the search is governed by the radius of the horizontal one.**
For every pose and setting and every two radii of the horizontal sweeps: in every world in
which the layers swept give the same hits, both searches return, with the same answer and
targets, if and only if the search cannot come as far as a second probe (it is refused, or
there is one layer at most, or the layers do not lie apart, or the step of the vertical
sweeps is negative) or the step is positive and the two radii are equal.  In a given world
they do so if the radii separate no sweep of the vertical part; and these sweeps are made
with `VerticalTraceRadius` exactly if that is the radius of the horizontal ones or no probe
is made.
SOURCE: AG_VaultOverAbility.cpp:56-152 -/
theorem verticalRadius_iff (x : VaultSearch K) (ρ ρ' : K) :
    ((∀ world, SameLayers (withRadius (inWorld x world) ρ) (withRadius (inWorld x world) ρ') →
        Agree (commitCheck (withRadius (inWorld x world) ρ))
          (commitCheck (withRadius (inWorld x world) ρ'))) ↔
      (Ready x → 1 < x.settings.horizontalTraceCount → LayersApart x →
        x.settings.verticalTraceStep < 0 ∨ 0 < x.settings.verticalTraceStep ∧ ρ = ρ')) ∧
    ∀ r, Returns (commitCheck (withRadius x ρ)) r →
      (SameLayers (withRadius x ρ) (withRadius x ρ') →
        (∀ s ∈ r.sweeps, (∀ i, s.phase ≠ .horizontal i) → ¬ Separates x.world ρ ρ' s) →
        Agree (commitCheck (withRadius x ρ)) (commitCheck (withRadius x ρ'))) ∧
      (VerticalSweepsWith x.settings.verticalTraceRadius r ↔
        (Probes (withRadius x ρ) → ρ = x.settings.verticalTraceRadius)) := by
  refine ⟨agree_inWorld_iff x ρ ρ', fun r hr => ⟨fun hsame halike => ?_, ?_⟩⟩
  · exact hsame.agree_of_not_separates hr halike
  · exact verticalSweepsWith_iff (Outcome.of_returns hr) x.settings.verticalTraceRadius

end Radius

/-- With the default settings the radii 30 and 50 do not agree in every world; at the low wall,
which does not ask for the radius, they do. -/
theorem verticalRadius_default :
    (¬ ∀ world, SameLayers (withRadius (inWorld (searchIn (.default ℚ) lowWall) world) 30)
        (withRadius (inWorld (searchIn (.default ℚ) lowWall) world) 50) →
      Agree (commitCheck (withRadius (inWorld (searchIn (.default ℚ) lowWall) world) 30))
        (commitCheck (withRadius (inWorld (searchIn (.default ℚ) lowWall) world) 50))) ∧
      Agree (commitCheck (withRadius (searchIn (.default ℚ) lowWall) 30))
        (commitCheck (withRadius (searchIn (.default ℚ) lowWall) 50)) := by
  obtain ⟨hworlds, hworld⟩ := verticalRadius_iff (searchIn (.default ℚ) lowWall) 30 50
  constructor
  · rw [hworlds]
    intro hcondition
    have hstep := hcondition ⟨rfl, rfl⟩ (by decide +kernel) (by
      intro hflat
      exact absurd (congrArg FVector.z hflat) (by decide +kernel))
    exact absurd hstep (by decide +kernel)
  · obtain ⟨r, hr, -⟩ := commitCheck_outcome_of_step
      (x := withRadius (searchIn (.default ℚ) lowWall) 30) (by decide +kernel)
    exact (hworld r hr).1 (fun _ _ _ _ => rfl) fun _ _ _ hseparates => hseparates rfl

/-- A low wall with a narrow landing: behind it a sphere of a radius above 40 always touches
something. -/
def narrowLanding : SphereTrace ℚ := fun start stop radius =>
  if start.z = 0 ∧ start.x < stop.x then some ⟨⟨100, 0, 0⟩, ⟨100, 0, 0⟩, ⟨-1, 0, 0⟩⟩
  else if stop.z < start.z ∧ (start.x ≤ 160 ∨ 40 < radius) then
    some ⟨stop, ⟨start.x, 0, 0⟩, ⟨0, 0, 1⟩⟩
  else none

/-- With the radius 50 for the horizontal sweeps the search fails where it passes with 30,
though all layers give the same hits. -/
theorem not_agree_narrowLanding :
    SameLayers (withRadius (searchIn (.default ℚ) narrowLanding) 30)
        (withRadius (searchIn (.default ℚ) narrowLanding) 50) ∧
      ¬ Agree (commitCheck (withRadius (searchIn (.default ℚ) narrowLanding) 30))
        (commitCheck (withRadius (searchIn (.default ℚ) narrowLanding) 50)) := by
  constructor
  · intro _ _ i _
    simp [trace, layer, narrowLanding, withRadius, searchIn]
  · have hpasses : (commitCheck (withRadius (searchIn (.default ℚ) narrowLanding) 30) 30).map
        (fun r => r.passed) = some true := by decide +kernel
    have hfails : (commitCheck (withRadius (searchIn (.default ℚ) narrowLanding) 50) 30).map
        (fun r => r.passed) = some false := by decide +kernel
    obtain ⟨r, hr, hpassed⟩ := Option.map_eq_some_iff.mp hpasses
    obtain ⟨r', hr', hfailed⟩ := Option.map_eq_some_iff.mp hfails
    rintro ⟨s, s', hs, hs', hsame⟩
    have heq := hsame.passed
    rw [hs.unique (commitCheck_returns hr), hs'.unique (commitCheck_returns hr'), hpassed,
      hfailed] at heq
    exact absurd heq (by decide)

end GasSamples.Analysis
