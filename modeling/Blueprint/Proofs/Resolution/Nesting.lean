import Mathlib.Data.List.Chain
import Blueprint.Proofs.Resolution.Calls

/-!
# How deep includes are nested

A call knows the chain of files that led to it and the number of levels that are left. The two
belong together: a level is used up for every file that the chain gets longer. So the chain of a
diagnostic tells how deep the directive was that it is about.

- `Job.Traced`: the chain of a call leads from the root file to the place of the call, file by file.
- `Job.traced_of_calls`: every call is traced.
- `Workspace.Reports.chain_cases`: the chain of a diagnostic, given the call that reports it.
- `Job.LoadedAt.depth_le`: no file is loaded below the limit.
- `Job.chains_follow_nesting`: chains and depth in calls and in results.
-/

namespace Blueprint

/-! ## The chain of a call -/

namespace Place

theorem length_chain_enter (p : Place) (file : Path) :
    (p.enter file).chain.length = p.chain.length + 1 := by simp

theorem getLast?_chain (p : Place) : p.chain.getLast? = some p.file := by simp [chain]

end Place

namespace Job

variable {j : Job} {levels : Nat} {place : Place} {d : Inclusion} {s s' : Progress}

/-- The chain of a call leads from the root file to the place of the call. Every file on it includes
the next one, none is on it twice, and all are loaded. A level is left for every file that may still
be added. -/
structure Traced (j : Job) (levels : Nat) (place : Place) (s : Progress) : Prop where
  first : place.chain.head? = some j.root
  nodup : place.chain.Nodup
  loaded : ∀ f ∈ place.chain, f ∈ s.files
  edges : place.chain.IsChain j.Includes
  length : place.chain.length + levels = j.resolver.levels + 1

namespace Traced

theorem mono (h : j.Traced levels place s) (hg : s.Grows s') : j.Traced levels place s' :=
  { h with loaded := fun f hf => hg.files.subset (h.loaded f hf) }

/-- A file that is not on the chain is added at its end, for a level. -/
theorem enter {f : Path} {es : List Diagnostic} (h : j.Traced (levels + 1) place s)
    (hchain : f ∉ place.chain) (hf : j.Includes place.file f) (hadds : s.Adds [f] es s') :
    j.Traced levels (place.enter f) s' where
  first := by
    rw [Place.chain_enter, List.head?_append, h.first]
    rfl
  nodup := by
    rw [Place.chain_enter, List.nodup_append]
    refine ⟨h.nodup, by simp, ?_⟩
    rintro g hg t ht rfl
    rw [List.mem_singleton.1 ht] at hg
    exact hchain hg
  loaded g hg := by
    rw [Place.chain_enter, List.mem_append] at hg
    exact hadds.mem_files.2 (hg.imp_left (h.loaded g))
  edges := by
    rw [Place.chain_enter]
    refine h.edges.append (List.isChain_singleton f) ?_
    intro g hg t ht
    rw [Place.getLast?_chain, Option.mem_some_iff] at hg
    rw [List.head?_singleton, Option.mem_some_iff] at ht
    rwa [← hg, ← ht]
  length := by
    have hlength := h.length
    rw [Place.length_chain_enter]
    omega

end Traced

/-- At the root file all levels are left. -/
theorem traced_start (hadds : Progress.Adds {} [j.root] [] s) :
    j.Traced j.resolver.levels j.start s where
  first := rfl
  nodup := by simp [start, Place.chain]
  loaded := (under_start hadds).loaded
  edges := List.isChain_singleton j.root
  length := Nat.add_comm 1 _

/-- **The chain of every call leads from the root file to the place of the call.** -/
theorem traced_of_calls (h : j.Calls levels place d s) : j.Traced levels place s := by
  induction h with
  | root named source opened turn =>
    have hstart := traced_start (of_opening_eq_some opened).2
    exact hstart.mono (turn.grows fun _ _ _ _ => Workspace.grows_of_expands)
  | deeper call enters turn ih =>
    -- the call that led here was made for a directive of the file before
    have hd := (under_of_calls call).2
    have henter := ih.enter enters.offChain ⟨_, hd, rfl⟩ enters.adds
    exact henter.mono (turn.grows fun _ _ _ _ => Workspace.grows_of_expands)

end Job

/-! ## The chain of a diagnostic -/

namespace Workspace

variable {w : Workspace} {levels : Nat} {place : Place} {d : Inclusion} {e : Diagnostic}

/-- A file that cannot be read is no part of the chain, one that cannot be parsed is. -/
theorem chain_of_reading_eq_error {target : Path} {found : Found}
    (h : w.reading place d target found = .error e) :
    e.chain = place.chain ∨ e.chain = place.chain ++ [target] := by
  unfold reading at h
  split at h
  · cases h
    exact Or.inl rfl
  · split at h
    · cases h
    · cases h
      exact Or.inr (Place.chain_enter place target)

/-- The chain of a diagnostic ends with the place of the call that reports it, or with the file that
the call leads to. -/
theorem Reports.chain_cases (h : w.Reports levels place d e) :
    e.kind = .maxDepthExceeded ∧ levels = 0 ∧ e.chain = place.chain ++ [w.target place.file d] ∨
      e.kind = .circularInclude ∧ w.target place.file d ∈ place.chain ∧
        e.chain = place.chain ++ [w.target place.file d] ∨
      (e.kind ≠ .maxDepthExceeded ∧ e.kind ≠ .circularInclude) ∧
        (e.chain = place.chain ∨
          0 < levels ∧ e.chain = place.chain ++ [w.target place.file d]) := by
  cases h with
  | suspicious mem =>
    rw [kind_of_mem_suspicions mem]
    exact Or.inr (Or.inr ⟨by decide, Or.inl (chain_of_mem_suspicions mem)⟩)
  | tooDeep => exact Or.inl ⟨rfl, rfl, rfl⟩
  | circular onChain => exact Or.inr (Or.inl ⟨rfl, onChain, rfl⟩)
  | missing => exact Or.inr (Or.inr ⟨⟨nofun, nofun⟩, Or.inl rfl⟩)
  | refused read =>
    have hchain := chain_of_reading_eq_error read
    refine Or.inr (Or.inr ⟨?_, hchain.imp_right fun h => ⟨Nat.succ_pos _, h⟩⟩)
    rcases (of_reading_eq_error read).2 with hkind | hkind
    · rw [hkind]
      decide
    · rw [hkind]
      decide

end Workspace

/-! ## Results -/

namespace Job

variable {j : Job} {res : Resolution} {e : Diagnostic}

/-- No file is loaded deeper than the limit. -/
theorem LoadedAt.depth_le {f : Path} {depth : Nat} (h : j.LoadedAt f depth) :
    depth ≤ j.resolver.levels := by
  cases h with
  | root => exact Nat.zero_le _
  | call call =>
    have hlength := (traced_of_calls call).length
    omega

/-- What is reported as nested too deeply comes from a call without a level left. -/
theorem exists_calls_zero (hyields : j.Yields res) (he : e ∈ res.diagnostics)
    (hkind : e.kind = .maxDepthExceeded) :
    ∃ place d s, j.Calls 0 place d s ∧
      e.chain = place.chain ++ [j.workspace.target place.file d] := by
  rcases root_or_reported hyields he with ⟨-, hroot⟩ | ⟨levels, place, d, s, hcall, hreports⟩
  · rcases hroot with h | h <;> cases hkind.symm.trans h
  · rcases hreports.chain_cases with ⟨-, rfl, hchain⟩ | ⟨hother, -⟩ | ⟨⟨hother, -⟩, -⟩
    · exact ⟨place, d, s, hcall, hchain⟩
    · cases hkind.symm.trans hother
    · exact absurd hkind hother

theorem length_chain_of_tooDeep (hyields : j.Yields res) (he : e ∈ res.diagnostics)
    (hkind : e.kind = .maxDepthExceeded) : e.chain.length = j.resolver.levels + 2 := by
  obtain ⟨place, d, s, hcall, hchain⟩ := exists_calls_zero hyields he hkind
  -- no level was left, so the chain is as long as it can get
  have hlength := (traced_of_calls hcall).length
  rw [hchain, List.length_append, List.length_singleton]
  omega

theorem last_mem_chain_of_circular (hyields : j.Yields res) (he : e ∈ res.diagnostics)
    (hkind : e.kind = .circularInclude) : ∃ earlier f, e.chain = earlier ++ [f] ∧ f ∈ earlier := by
  rcases root_or_reported hyields he with ⟨-, hroot⟩ | ⟨levels, place, d, s, -, hreports⟩
  · rcases hroot with h | h <;> cases hkind.symm.trans h
  · rcases hreports.chain_cases with ⟨hother, -⟩ | ⟨-, hmem, hchain⟩ | ⟨⟨-, hother⟩, -⟩
    · cases hkind.symm.trans hother
    · exact ⟨_, _, hchain, hmem⟩
    · exact absurd hkind hother

theorem length_chain_le (hyields : j.Yields res) (he : e ∈ res.diagnostics)
    (hdeep : e.kind ≠ .maxDepthExceeded) (hcircular : e.kind ≠ .circularInclude) :
    e.chain.length ≤ j.resolver.levels + 1 := by
  rcases root_or_reported hyields he with ⟨hchain, -⟩ | ⟨levels, place, d, s, hcall, hreports⟩
  · rw [hchain, List.length_singleton]
    exact Nat.le_add_left 1 _
  · have hlength := (traced_of_calls hcall).length
    rcases hreports.chain_cases with ⟨hkind, -⟩ | ⟨hkind, -⟩ | ⟨-, hchain | ⟨hlevels, hchain⟩⟩
    · exact absurd hkind hdeep
    · exact absurd hkind hcircular
    · rw [hchain]
      omega
    · rw [hchain, List.length_append, List.length_singleton]
      omega

/-- **Chains follow the nesting.** At every call of a resolution, whether it comes to a result or
not, the chain starts with the root file, no file is on it twice, all files on it are loaded, each
includes the next one, and it has one file more than the depth, which is within the limit. In every
result, the chain of a nesting that is too deep has two names more than the limit, the chain of a
circular include ends with a file that is on it before, all other chains have at most one name more
than the limit, and every file was loaded at a depth within the limit. -/
theorem chains_follow_nesting (j : Job) (hlimit : 0 ≤ j.resolver.maxDepth) :
    (∀ levels place d s, j.Calls levels place d s →
      place.chain.head? = some j.root ∧ place.chain.Nodup ∧ (∀ f ∈ place.chain, f ∈ s.files) ∧
        place.chain.IsChain j.Includes ∧
        ∃ depth : Nat, (depth : Int) = j.resolver.maxDepth - levels ∧
          place.chain.length = depth + 1 ∧ depth ≤ j.resolver.maxDepth) ∧
    ∀ res, j.Yields res →
      (∀ e ∈ res.diagnostics,
        (e.kind = .maxDepthExceeded → e.chainNames.length = j.resolver.maxDepth + 2) ∧
        (e.kind = .circularInclude → ∃ earlier f, e.chain = earlier ++ [f] ∧ f ∈ earlier) ∧
        (e.kind ≠ .maxDepthExceeded → e.kind ≠ .circularInclude →
          e.chainNames.length ≤ j.resolver.maxDepth + 1)) ∧
      ∀ f ∈ res.files, ∃ depth, j.LoadedAt f depth ∧ depth ≤ j.resolver.maxDepth := by
  have hlevels : (j.resolver.levels : Int) = j.resolver.maxDepth := Int.toNat_of_nonneg hlimit
  refine ⟨fun levels place d s hcall => ?_, fun res hyields => ⟨fun e he => ⟨?_, ?_, ?_⟩, ?_⟩⟩
  · have htraced := traced_of_calls hcall
    have hlength := htraced.length
    have hsome : 0 < place.chain.length := by simp [Place.chain]
    exact ⟨htraced.first, htraced.nodup, htraced.loaded, htraced.edges, place.chain.length - 1,
      by omega, by omega, by omega⟩
  · intro hkind
    have hlength := length_chain_of_tooDeep hyields he hkind
    rw [Diagnostic.chainNames, List.length_map]
    omega
  · exact last_mem_chain_of_circular hyields he
  · intro hdeep hcircular
    have hlength := length_chain_le hyields he hdeep hcircular
    rw [Diagnostic.chainNames, List.length_map]
    omega
  · intro f hf
    obtain ⟨depth, hloaded⟩ := exists_loadedAt hyields hf
    have hdepth := hloaded.depth_le
    exact ⟨depth, hloaded, by omega⟩

/-- The shop with a limit that lets the root file include others, and these no more. -/
def flatShop : Job := { shop with resolver := { maxDepth := 1 } }

/-- In the flat shop the directives of the orders are too deep, among them the one that leads back
to the root file. -/
theorem flatShop_chains :
    0 ≤ flatShop.resolver.maxDepth ∧ ∃ res, flatShop.Yields res ∧
      res.diagnostics.map (fun e => (e.kind, e.chainNames)) =
        [(.maxDepthExceeded, ["main.mfd", "orders.mfd", "stock.mfd"]),
          (.maxDepthExceeded, ["main.mfd", "orders.mfd", "main.mfd"]),
          (.maxDepthExceeded, ["main.mfd", "orders.mfd", "notes.mfd"]),
          (.maxDepthExceeded, ["main.mfd", "stock.mfd", "gone.mfd"])] ∧
      (∀ e ∈ res.diagnostics, e.kind = .maxDepthExceeded →
        e.chainNames.length = flatShop.resolver.maxDepth + 2) ∧
      ∀ f ∈ res.files, ∃ depth, flatShop.LoadedAt f depth ∧ depth ≤ flatShop.resolver.maxDepth := by
  have hlimit : 0 ≤ flatShop.resolver.maxDepth := by decide
  have hresult : flatShop.result?.map
      (fun res => res.diagnostics.map fun e => (e.kind, e.chainNames)) =
        some [(.maxDepthExceeded, ["main.mfd", "orders.mfd", "stock.mfd"]),
          (.maxDepthExceeded, ["main.mfd", "orders.mfd", "main.mfd"]),
          (.maxDepthExceeded, ["main.mfd", "orders.mfd", "notes.mfd"]),
          (.maxDepthExceeded, ["main.mfd", "stock.mfd", "gone.mfd"])] := by decide +kernel
  obtain ⟨res, hres, hchains⟩ := Option.map_eq_some_iff.1 hresult
  have hyields := yields_iff.2 hres
  obtain ⟨hdiagnostics, hfiles⟩ := (chains_follow_nesting flatShop hlimit).2 res hyields
  exact ⟨hlimit, res, hyields, hchains, fun e he => (hdiagnostics e he).1, hfiles⟩

end Job

end Blueprint
