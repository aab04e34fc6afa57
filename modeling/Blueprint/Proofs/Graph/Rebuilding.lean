import Blueprint.Proofs.Graph.Edges

/-!
# Building twice is building once

A builder can be asked to build again, and then everything that the model says is said once more to
a graph that has heard it. Nothing comes of it, whatever was done before the first time. An
instruction that has been carried out has nothing left to do, and it never gets anything to do
again, because records only grow: a slot that refuses a target goes on refusing it, even if it
refused the target because of something else that it holds.

- `Builder.Settled`: an instruction has nothing left to do.
- `Builder.run_of_settled`: then it changes nothing.
- `Builder.settled_run_self`: this is so after it has been carried out.
- `Builder.Settled.run`: and it stays so, whatever is done next.
- `Builder.settled_foldl_run`, `Builder.build_build`: so it is for all that a model says.
- `Builder.commands_build_idempotent`: what this means for a builder that can be asked anything.
-/

namespace Blueprint

/-! ## Changes that change nothing -/

namespace Table

variable {κ α : Type} [DecidableEq κ]

theorem upsertEntries_of_lookup {k : κ} {v : α} {f : Option α → α} {es : List (κ × α)}
    (h : lookup k es = some v) (hf : f (some v) = v) : upsertEntries k f es = es := by
  induction es with
  | nil => cases h
  | cons e es ih =>
    obtain ⟨k', v'⟩ := e
    by_cases hk : k' = k
    · rw [lookup, if_pos hk] at h
      obtain rfl := Option.some.inj h
      rw [upsertEntries, if_pos hk, hf]
    · rw [lookup, if_neg hk] at h
      rw [upsertEntries, if_neg hk, ih h]

/-- Setting a key to the value that it has changes nothing. -/
theorem insert_of_find? {t : Table κ α} {k : κ} {v : α} (h : t.find? k = some v) :
    t.insert k v = t :=
  Table.ext (upsertEntries_of_lookup h rfl)

end Table

/-- Adding an endpoint that is there changes nothing. -/
theorem Record.addEndpoint_of_mem {r : Record} {s : EndpointSlot} {e : EndpointRef}
    (h : e ∈ r.endpoints s) : r.addEndpoint s e = r := by
  have hsame : (fun t => if t = s then addNew (r.endpoints s) e else r.endpoints t) =
      r.endpoints := by
    funext t
    by_cases ht : t = s
    · rw [if_pos ht, addNew, if_pos h, ht]
    · rw [if_neg ht]
  show { r with endpoints := _ } = r
  rw [hsame]

/-! ## Endpoints stay -/

/-- The endpoints that a construct's record holds in a slot. -/
def Graph.endpointsAt (g : Graph) (k : Key) (s : EndpointSlot) : List EndpointRef :=
  ((g.record? k).map fun r => r.endpoints s).getD []

theorem Graph.mem_endpointsAt_iff {g : Graph} {k : Key} {s : EndpointSlot} {e : EndpointRef} :
    e ∈ g.endpointsAt k s ↔ ∃ r, g.record? k = some r ∧ e ∈ r.endpoints s := by
  rw [endpointsAt]
  cases g.record? k <;> simp

namespace Builder

open Blueprint.Graph

variable {m : Model} {o : Ownership} {b b' : Builder}

/-- Touching leaves the records that are there alone. -/
theorem record?_touch_of_some {j : Key} {r : Record} (h : b.graph.record? j = some r) (k : Key) :
    (b.touch o k).graph.record? j = some r := by
  unfold touch
  split
  · exact h
  · next hnew =>
    cases o.owner? k with
    | none => exact h
    | some c =>
      have hj : j ≠ k := by
        rintro rfl
        obtain ⟨v, hv, -⟩ := Option.map_eq_some_iff.1 h
        exact hnew (Table.contains_iff.2 (Table.mem_keys_iff.2 ⟨v, hv⟩))
      show (((b.graph.vertices.insert k _).find? j).map Vertex.record) = some r
      rw [Table.find?_insert, if_neg hj]
      exact h

section

variable {k : Key} {s : EndpointSlot} {e : EndpointRef} (h : e ∈ b.graph.endpointsAt k s)

include h

theorem mem_endpointsAt_touch (j : Key) : e ∈ (b.touch o j).graph.endpointsAt k s := by
  obtain ⟨r, hr, he⟩ := mem_endpointsAt_iff.1 h
  exact mem_endpointsAt_iff.2 ⟨r, record?_touch_of_some hr j, he⟩

theorem mem_endpointsAt_modify {f : Record → Record}
    (hf : ∀ r : Record, e ∈ r.endpoints s → e ∈ (f r).endpoints s) (j : Key) :
    e ∈ (b.modify j f).graph.endpointsAt k s := by
  obtain ⟨r, hr, he⟩ := mem_endpointsAt_iff.1 h
  rw [mem_endpointsAt_iff, record?_modify]
  by_cases hk : k = j
  · rw [if_pos hk, ← hk, hr]
    exact ⟨f r, rfl, hf r he⟩
  · rw [if_neg hk]
    exact ⟨r, hr, he⟩

theorem mem_endpointsAt_connect (c : Category) (source target : Ref) :
    e ∈ (b.connect c source target).graph.endpointsAt k s := by
  have hforward := mem_endpointsAt_modify h
    (f := fun r => r.setRefs c.forward (r.refs c.forward ++ [target])) (fun _ he => he) source.key
  exact mem_endpointsAt_modify hforward
    (f := fun r => r.setRefs c.inverse (addNew (r.refs c.inverse) source)) (fun _ he => he)
    target.key

/-- No instruction takes an endpoint away. -/
theorem mem_endpointsAt_run (i : Instruction) : e ∈ (b.run o i).graph.endpointsAt k s := by
  cases i with
  | touch j => exact mem_endpointsAt_touch h j
  | link c source target =>
    have htouched : e ∈ ((b.touch o source).touch o target).graph.endpointsAt k s :=
      mem_endpointsAt_touch (mem_endpointsAt_touch h source) target
    show e ∈ (b.link o c source target).1.graph.endpointsAt k s
    obtain heq | ⟨s', t', -, -, -, heq⟩ := link_cases o b c source target
    · rw [heq]
      exact htouched
    · rw [heq]
      exact mem_endpointsAt_connect htouched c s' t'
  | annotate j s' e' =>
    refine mem_endpointsAt_modify (mem_endpointsAt_touch h j)
      (f := fun r => r.addEndpoint s' e') ?_ j
    intro r he
    show e ∈ if s = s' then addNew (r.endpoints s') e' else r.endpoints s
    split
    · -- another endpoint is added behind it
      next hs => exact mem_addNew_iff.2 (Or.inl (hs ▸ he))
    · exact he

end

/-! ## Instructions with nothing left to do -/

/-- A construct with an owner has its vertex. -/
def Met (o : Ownership) (b : Builder) (k : Key) : Prop :=
  ∀ r, refOf o k = some r → b.graph.ref? k = some r

/-- An instruction has nothing left to do: the constructs that it names have been met, and if they
have owners, the source of a link takes no such target and the endpoint is there. -/
def Settled (o : Ownership) (b : Builder) : Instruction → Prop
  | .touch k => b.Met o k
  | .link c source target => b.Met o source ∧ b.Met o target ∧
      ∀ s t, refOf o source = some s → refOf o target = some t →
        (b.isBlocked c source || refuses c (b.graph.refsAt source c.forward) t) = true
  | .annotate k s e => b.Met o k ∧ ∀ r, refOf o k = some r → e ∈ b.graph.endpointsAt k s

theorem touch_of_met {k : Key} (h : b.Met o k) : b.touch o k = b := by
  unfold touch
  split
  · rfl
  · next hnew =>
    cases hc : o.owner? k with
    | none => rfl
    | some c =>
      -- with an owner it would have been met, and then it has a vertex
      have href : refOf o k = some ⟨c, k.kind, k.name⟩ := by
        rw [refOf, hc]
        rfl
      exact absurd (Table.contains_iff.2 (mem_keys_iff.2 ⟨_, h _ href⟩)) hnew

theorem modify_of_same {k : Key} {f : Record → Record}
    (h : ∀ r, b.graph.record? k = some r → f r = r) : b.modify k f = b := by
  unfold modify
  cases hv : b.graph.vertices.find? k with
  | none => rfl
  | some v =>
    have hrecord : b.graph.record? k = some v.record := by rw [record?, hv]; rfl
    have hsame : ({ v with record := f v.record } : Vertex) = v := by rw [h _ hrecord]
    show { b with graph := ⟨b.graph.vertices.insert k _⟩ } = b
    rw [hsame, Table.insert_of_find? hv]

/-- **An instruction with nothing left to do changes nothing.** -/
theorem run_of_settled (hb : b.graph.Sound o) {i : Instruction} (h : b.Settled o i) :
    b.run o i = b := by
  cases i with
  | touch k => exact touch_of_met h
  | link c source target =>
    obtain ⟨hsource, htarget, hrefuses⟩ := h
    show (b.link o c source target).1 = b
    simp only [link, touch_of_met hsource, touch_of_met htarget]
    split
    · next s t hs ht =>
      -- both ends have owners, so the source refuses
      rw [if_pos (hrefuses s t (hb.owned hs) (hb.owned ht))]
    · rfl
  | annotate k s e =>
    obtain ⟨hmet, hheld⟩ := h
    show (b.touch o k).modify k (fun r => r.addEndpoint s e) = b
    rw [touch_of_met hmet]
    refine modify_of_same fun r hr => Record.addEndpoint_of_mem ?_
    obtain ⟨v, hv, -⟩ := Option.map_eq_some_iff.1 hr
    have href : b.graph.ref? k = some v.ref := by rw [ref?, hv]; rfl
    obtain ⟨r', hr', he⟩ := mem_endpointsAt_iff.1 (hheld _ (hb.owned href))
    rw [hr] at hr'
    obtain rfl := Option.some.inj hr'
    exact he

/-! ## After an instruction -/

theorem met_touch (hb : b.graph.Sound o) (k : Key) : (b.touch o k).Met o k :=
  fun _ hr => ref?_touch_self hb hr

theorem Met.keeps {k : Key} (h : b.Met o k) (hk : b.Keeps b') : b'.Met o k :=
  fun r hr => hk.known (h r hr)

/-- A slot refuses what it holds, whether it has room for one reference or for many. -/
theorem refuses_of_mem {c : Category} {held : List Ref} {t : Ref} (h : t ∈ held) :
    refuses c held t = true := by
  unfold refuses
  split
  · cases held with
    | nil => exact absurd h List.not_mem_nil
    | cons => rfl
  · exact List.contains_iff_mem.2 h

/-- A slot that refuses a target goes on refusing it when it holds more. -/
theorem refuses_mono {c : Category} {held held' : List Ref} {t : Ref} (hsub : held ⊆ held')
    (h : refuses c held t = true) : refuses c held' t = true := by
  unfold refuses at h ⊢
  split at h
  · next hsingle =>
    rw [if_pos hsingle]
    cases held with
    | nil => cases h
    | cons r rest =>
      cases held' with
      | nil => exact absurd (hsub List.mem_cons_self) List.not_mem_nil
      | cons => rfl
  · next hmany =>
    rw [if_neg hmany]
    exact List.contains_iff_mem.2 (hsub (List.contains_iff_mem.1 h))

/-- After a link the source refuses the target: it did so before, or it holds the target now. -/
theorem refuses_link (hb : b.graph.Sound o) {c : Category} {source target : Key} {s t : Ref}
    (hs : refOf o source = some s) (ht : refOf o target = some t) :
    ((b.link o c source target).1.isBlocked c source ||
      refuses c ((b.link o c source target).1.graph.refsAt source c.forward) t) = true := by
  have hsource := (keeps_touch o _ target).known (ref?_touch_self hb hs)
  have htarget := ref?_touch_self (sound_touch hb source) ht
  simp only [link, hsource, htarget]
  split
  · next hrefused => exact hrefused
  · obtain rfl := key_of_refOf hs
    obtain rfl := key_of_refOf ht
    have hheld : t ∈ (((b.touch o s.key).touch o t.key).connect c s t).graph.refsAt s.key
        c.forward := (mem_refsAt_connect hsource htarget).2 (Or.inl (Or.inr ⟨rfl, rfl, rfl⟩))
    rw [refuses_of_mem hheld, Bool.or_true]

/-- **An instruction that has been carried out has nothing left to do.** -/
theorem settled_run_self (hb : b.graph.Sound o) (i : Instruction) : (b.run o i).Settled o i := by
  cases i with
  | touch k => exact met_touch hb k
  | link c source target =>
    have htouched := sound_touch hb source
    have hlinked := keeps_link hb c source target
    refine ⟨?_, ?_, fun s t hs ht => refuses_link hb hs ht⟩
    · exact ((met_touch hb source).keeps (keeps_touch o _ target)).keeps hlinked
    · exact (met_touch htouched target).keeps hlinked
  | annotate k s e =>
    obtain ⟨hknown, -⟩ := annotate_views (o := o) (b := b) k s e
    refine ⟨fun r hr => (hknown k).trans (met_touch hb k r hr), fun r hr => ?_⟩
    obtain ⟨v, hv, -⟩ := Option.map_eq_some_iff.1 (met_touch hb k r hr)
    have hrecord : (b.touch o k).graph.record? k = some v.record := by rw [record?, hv]; rfl
    show e ∈ ((b.touch o k).modify k _).graph.endpointsAt k s
    rw [mem_endpointsAt_iff, record?_modify, if_pos rfl, hrecord]
    refine ⟨_, rfl, ?_⟩
    show e ∈ if s = s then addNew (v.record.endpoints s) e else _
    rw [if_pos rfl, mem_addNew_iff]
    exact Or.inr rfl

/-- **It does not get anything to do again.** -/
theorem Settled.run (hb : b.graph.Sound o) {i : Instruction} (h : b.Settled o i)
    (j : Instruction) : (b.run o j).Settled o i := by
  have hkeeps : b.Keeps (b.run o j) := keeps_run hb j
  cases i with
  | touch k => exact Met.keeps h hkeeps
  | link c source target =>
    obtain ⟨hsource, htarget, hrefuses⟩ := h
    refine ⟨hsource.keeps hkeeps, htarget.keeps hkeeps, fun s t hs ht => ?_⟩
    have hbefore := hrefuses s t hs ht
    rw [Bool.or_eq_true] at hbefore ⊢
    -- strays never change, and slots only grow
    refine hbefore.imp (fun hblocked => ?_) (refuses_mono fun _ => hkeeps.held)
    rw [isBlocked, straysUnder, strays_run]
    exact hblocked
  | annotate k s e =>
    obtain ⟨hmet, hheld⟩ := h
    exact ⟨hmet.keeps hkeeps, fun r hr => mem_endpointsAt_run (hheld r hr) j⟩

/-! ## Runs -/

theorem Settled.foldl_run (is : List Instruction) {i : Instruction} :
    ∀ {b : Builder}, b.graph.Sound o → b.Settled o i →
      (is.foldl (Builder.run o) b).Settled o i := by
  induction is with
  | nil => exact fun _ h => h
  | cons j rest ih => exact fun hb h => ih (sound_run hb j) (h.run hb j)

/-- When instructions have been carried out, none of them has anything left to do. -/
theorem settled_foldl_run (is : List Instruction) :
    ∀ {b : Builder}, b.graph.Sound o → ∀ i ∈ is, (is.foldl (Builder.run o) b).Settled o i := by
  induction is with
  | nil => exact fun _ i hi => absurd hi List.not_mem_nil
  | cons j rest ih =>
    intro b hb i hi
    rcases List.mem_cons.1 hi with rfl | hi
    · -- carried out first, and settled through the rest
      exact (settled_run_self hb i).foldl_run rest (sound_run hb i)
    · exact ih (sound_run hb j) i hi

theorem foldl_run_of_settled (hb : b.graph.Sound o) (is : List Instruction)
    (h : ∀ i ∈ is, b.Settled o i) : is.foldl (Builder.run o) b = b := by
  induction is with
  | nil => rfl
  | cons i rest ih =>
    rw [List.forall_mem_cons] at h
    rw [List.foldl_cons, run_of_settled hb h.1, ih h.2]

/-- **Building twice is building once.** -/
theorem build_build (hb : b.graph.Sound o) : build m o (build m o b) = build m o b :=
  foldl_run_of_settled (sound_foldl_run hb _) _ (settled_foldl_run _ hb)

/-- Whatever is asked of a builder, references name owners and there are no strays. -/
theorem sound_foldl_obey (m : Model) (o : Ownership) (cs : List Command) :
    (cs.foldl (obey m o) {}).graph.Sound o ∧ (cs.foldl (obey m o) {}).strays = ∅ := by
  refine List.foldlRecOn (motive := fun b : Builder => b.graph.Sound o ∧ b.strays = ∅) cs _
    ⟨sound_empty o, rfl⟩ ?_
  rintro b ⟨hsound, hstrays⟩ c -
  cases c with
  | step i => exact ⟨sound_run hsound i, (strays_run i).trans hstrays⟩
  | build => exact ⟨sound_foldl_run hsound _, (strays_foldl_run _ b).trans hstrays⟩

/-- **Building is idempotent.** Whatever the model and the owners are, and whatever has been asked
of a builder before, be it to touch any construct, to link any two constructs by any category, to
note an endpoint or to build: when it is asked to build twice in a row, both times a graph is
finished, and it is the same graph, with the same records and references in the same order. No edge
is counted again, and the builder is left as it was. -/
theorem commands_build_idempotent (m : Model) (o : Ownership) (cs : List Command) :
    ∃ g, ((cs ++ [Command.build]).foldl (obey m o) {}).finish = .ok g ∧
      ((cs ++ [Command.build, .build]).foldl (obey m o) {}).finish = .ok g ∧
      ((cs ++ [Command.build, .build]).foldl (obey m o) {}).edgeCount =
        ((cs ++ [Command.build]).foldl (obey m o) {}).edgeCount ∧
      (cs ++ [Command.build, .build]).foldl (obey m o) {} =
        (cs ++ [Command.build]).foldl (obey m o) {} := by
  have htwice : (cs ++ [Command.build, .build]).foldl (obey m o) {} =
      (cs ++ [Command.build]).foldl (obey m o) {} := by
    rw [List.foldl_append, List.foldl_append]
    exact build_build (sound_foldl_obey m o cs).1
  have hstrays := (sound_foldl_obey m o (cs ++ [Command.build])).2
  rw [htwice]
  exact ⟨_, finish_of_strays_eq_empty hstrays, finish_of_strays_eq_empty hstrays, rfl, rfl⟩

end Builder

end Blueprint
