import Blueprint.Proofs.Document.Placement
import Blueprint.Proofs.Json.Decoded

/-!
# Reading what was written

Readers are lenient: they take a number from a text, a member under a second spelling, and a default
for a member that is absent. What they return is written in one form only. The lemmas below say, for
each way to build readers, that this form is read as the same again.

Type expressions are read to a bound that comes from the value at hand. The value that is written
may have another depth than the one that was read, so it is read by a family of readers, one for
each bound.

- `Json.Normal`, `Json.Tidy`: the form of what is written, without null and without snake case.
- `Schema.Kept`, `Schema.Keeps`: values that are read again, and readers that return only such.
- `Schema.KeepsMember`, `Schema.KeepsRest`: one member of an object, and the members that are still
  to be read after some fields.
- `Schema.KeepsVariant`, `Schema.KeepsUnion`: the alternatives of a union.
-/

namespace Blueprint

namespace Json

/-- The form in which values are written, apart from the values in them: a member without a value is
left out, and no key is in snake case. -/
def Normal : Json → Prop
  | null => False
  | obj ms => ∀ m ∈ ms, '_' ∉ m.1.toList
  | _ => True

/-- What can be written as a text, in the form in which it is written. -/
def Tidy (v : Json) : Prop := v.Plain ∧ v.Normal

/-- Names of fields in camel case, each of them once. -/
def CamelNames (names : List String) : Prop := names.Nodup ∧ ∀ k ∈ names, '_' ∉ k.toList

instance (names : List String) : Decidable (CamelNames names) :=
  inferInstanceAs (Decidable (_ ∧ _))

variable {fields : List (String × Option Json)}

theorem everywhere_tidy_ofFields (hnames : CamelNames (fields.map Prod.fst))
    (h : ∀ k v, (k, some v) ∈ fields → v.Everywhere Tidy) : (ofFields fields).Everywhere Tidy := by
  rw [ofFields_eq_obj, everywhere_obj_iff]
  have hsublist := keys_membersOf_sublist fields
  refine ⟨⟨hnames.1.sublist hsublist, fun m hm => ?_⟩, fun m hm => ?_⟩
  · exact hnames.2 m.1 (hsublist.subset (List.mem_map_of_mem hm))
  · exact h m.1 m.2 (mem_membersOf_iff.1 hm)

end Json

namespace Schema

open Json

variable {α β : Type} {r : Reader α} {r' : Nat → Reader α} {w : α → Json} {a : α}

/-- A value is written in tidy form, and read from it again when the bound is large enough. -/
def Kept (r : Nat → Reader α) (w : α → Json) (a : α) : Prop :=
  (w a).Everywhere Tidy ∧ ∀ n, (w a).depth ≤ n → r n (w a) = .ok a

/-- What a reader returns is read again by the readers of a family. -/
def Keeps (r : Reader α) (r' : Nat → Reader α) (w : α → Json) : Prop :=
  ∀ v a, v.Everywhere Plain → r v = .ok a → Kept r' w a

/-! ## Leaves -/

theorem kept_string (s : String) : Kept (fun _ => string) Json.str s :=
  ⟨everywhere_of_isLeaf rfl ⟨trivial, trivial⟩, fun _ _ => rfl⟩

theorem keeps_string : Keeps string (fun _ => string) Json.str := fun _ s _ _ => kept_string s

theorem kept_boolean (b : Bool) : Kept (fun _ => boolean) Json.bool b :=
  ⟨everywhere_of_isLeaf rfl ⟨trivial, trivial⟩, fun _ _ => rfl⟩

theorem keeps_boolean : Keeps boolean (fun _ => boolean) Json.bool := fun _ b _ _ => kept_boolean b

theorem kept_integer {n : Int} (h : (Json.int n).Plain) : Kept (fun _ => integer) Json.int n :=
  ⟨everywhere_of_isLeaf rfl ⟨h, trivial⟩, fun _ _ => rfl⟩

theorem kept_zero : Kept (fun _ => integer) Json.int 0 :=
  kept_integer (plain_int_of_lt Nat.one_pos (by decide) (by decide))

/-- A numeral that is not too long stands for a number that is not too long. -/
theorem plain_numeral? {cs : List Char} {n : Int} (hsize : startsOversized cs = false)
    (h : numeral? cs = some n) : (Json.int n).Plain := by
  rcases hsplit : splitMinus cs with ⟨sign, body⟩
  simp only [numeral?, hsplit] at h
  simp only [startsOversized, hsplit] at hsize
  split at h
  · next hbody =>
    obtain ⟨hne, hall, hzero⟩ := hbody
    rw [List.all_eq_true] at hall
    -- the length is checked on the leading digits, and here all characters are digits
    have hlength : body.length ≤ maxNumeralDigits := by
      by_cases hhead : body.head? = some '0'
      · rw [hzero hhead]
        decide
      · simpa [hhead, List.takeWhile_eq_self_iff.2 hall] using hsize
    cases h
    refine plain_int_of_lt (List.length_pos_iff.2 hne) hlength ?_
    have habs : (if sign = [] then (ofDigits body : Int) else -ofDigits body).natAbs =
        ofDigits body := by
      split <;> simp
    rw [habs]
    exact ofDigits_lt hall
  · cases h

theorem plain_integerText {s : String} {n : Int} (h : integerText s = .ok n) :
    (Json.int n).Plain := by
  unfold integerText at h
  split at h
  · cases h
  · next hsize =>
    rw [Bool.not_eq_true] at hsize
    split at h
    · next hn =>
      cases h
      exact plain_numeral? hsize hn
    · split at h
      · cases h
      · split at h
        · cases h
        · next htidy =>
          rw [Bool.not_eq_true] at htidy
          split at h
          · next hn =>
            cases h
            exact plain_numeral? htidy hn
          · cases h

theorem keeps_integer : Keeps integer (fun _ => integer) Json.int := by
  intro v n hv h
  refine kept_integer ?_
  cases v with
  | int k =>
    cases h
    exact hv.self
  | bool b =>
    cases h
    exact plain_int_of_lt Nat.one_pos (by decide) (by cases b <;> decide)
  | float x =>
    simp only [integer] at h
    split at h
    · split at h
      · cases h
      · split at h
        · next hlimit =>
          cases h
          exact plain_int_of_lt (k := 19) (by decide) (by decide) (Nat.lt_trans hlimit (by decide))
        · cases h
    · cases h
  | str s => exact plain_integerText h
  | null => cases h
  | arr vs => cases h
  | obj ms => cases h

/-- The label of a literal selects what was found under it. -/
theorem keeps_literal [Literal α] :
    Keeps (literal : Reader α) (fun _ => literal) fun a => .str (Literal.label a) := by
  intro v a _ h
  refine ⟨everywhere_of_isLeaf rfl ⟨trivial, trivial⟩, fun _ _ => ?_⟩
  have hfound : labelled? v = some a := by
    unfold literal at h
    split at h
    · next b hb =>
      cases h
      exact hb
    · cases h
  cases v with
  | str s =>
    have hlabel : Literal.label a = s := by simpa using List.find?_some hfound
    show literal (.str (Literal.label a)) = _
    rw [hlabel]
    exact h
  | _ => cases hfound

/-! ## Lists -/

theorem kept_list {as : List α} (h : ∀ a ∈ as, Kept r' w a) :
    Kept (fun n => listOf (r' n)) (fun as => .arr (as.map w)) as := by
  constructor
  · rw [everywhere_arr_iff]
    refine ⟨⟨trivial, trivial⟩, fun v hv => ?_⟩
    obtain ⟨a, ha, rfl⟩ := List.mem_map.1 hv
    exact (h a ha).1
  · intro n hn
    refine listOf_map fun a ha => (h a ha).2 n ?_
    -- an element is at least one level less deep than the list
    have hdepth := depth_le_depthItems (List.mem_map_of_mem (f := w) ha)
    have hlist : depthItems (as.map w) + 1 ≤ n := hn
    omega

theorem kept_of_elementsFrom (h : Keeps r r' w) {vs : List Json}
    (hvs : ∀ v ∈ vs, v.Everywhere Plain) {i : Nat} {as : List α}
    (has : elementsFrom r i vs = .ok as) : ∀ a ∈ as, Kept r' w a := by
  induction vs generalizing i as with
  | nil =>
    cases has
    exact nofun
  | cons v vs ih =>
    rw [List.forall_mem_cons] at hvs
    obtain ⟨a, ha, has⟩ := exists_of_bind_eq_ok has
    obtain ⟨rest, hrest, has⟩ := exists_of_bind_eq_ok has
    cases has
    rw [List.forall_mem_cons]
    exact ⟨h v a hvs.1 (within_eq_ok_iff.1 ha), ih hvs.2 hrest⟩

theorem Keeps.listOf (h : Keeps r r' w) :
    Keeps (listOf r) (fun n => listOf (r' n)) fun as => .arr (as.map w) := by
  intro v as hv has
  cases v with
  | arr vs => exact kept_list (kept_of_elementsFrom h (everywhere_arr_iff.1 hv).2 has)
  | _ => cases has

/-! ## Members -/

/-- Members show fields: each is found under its name or absent, is not nested too deeply, and
there are no members in snake case. -/
structure Shows (n : Nat) (fields : List (String × Option Json)) (m : Members) : Prop where
  found : ∀ k o, (k, o) ∈ fields → memberOf? k m = o
  depth_le : ∀ k v, (k, some v) ∈ fields → v.depth ≤ n
  camel : ∀ k, '_' ∈ k.toList → memberOf? k m = none

theorem Shows.mono {n : Nat} {fields fields' : List (String × Option Json)} {m : Members}
    (h : Shows n fields' m) (hsub : fields ⊆ fields') : Shows n fields m :=
  ⟨fun k o ho => h.found k o (hsub ho), fun k v hv => h.depth_le k v (hsub hv), h.camel⟩

/-- What is written for fields shows them. -/
theorem shows_membersOf {n : Nat} {fields : List (String × Option Json)}
    (hnames : CamelNames (fields.map Prod.fst)) (hdepth : (ofFields fields).depth ≤ n + 1) :
    Shows n fields (membersOf fields) where
  found _ _ h := memberOf?_membersOf hnames.1 h
  depth_le k v h := by
    have hle := depth_le_depthMembers (mem_membersOf_iff.2 h)
    have hall : depthMembers (membersOf fields) + 1 ≤ n + 1 := hdepth
    exact Nat.le_trans hle (Nat.le_of_succ_le_succ hall)
  camel k hk := memberOf?_membersOf_eq_none fun hmem => hnames.2 k hmem hk

/-- A way to read a member of an object and the field that is written for what it returns. -/
def KeepsMember (g : Members → Except Mismatch α) (g' : Nat → Members → Except Mismatch α)
    (entry : α → String × Option Json) : Prop :=
  ∀ m a, (∀ p ∈ m, p.2.Everywhere Plain) → g m = .ok a →
    (∀ v, (entry a).2 = some v → v.Everywhere Tidy) ∧
      ∀ n m', Shows n [entry a] m' → g' n m' = .ok a

variable {m : Members} {name : String} {second : Option String}

theorem exists_of_required (h : required m name r second = .ok a) :
    ∃ found v, find? name second m = some (found, v) ∧ r v = .ok a := by
  unfold required at h
  split at h
  · next found v hfind => exact ⟨found, v, hfind, within_eq_ok_iff.1 h⟩
  · cases h

theorem of_defaulted {d : α} (h : defaulted m name r d second = .ok a) :
    a = d ∨ ∃ found v, find? name second m = some (found, v) ∧ r v = .ok a := by
  unfold defaulted at h
  split at h
  · next found v hfind => exact Or.inr ⟨found, v, hfind, within_eq_ok_iff.1 h⟩
  · cases h
    exact Or.inl rfl

theorem of_optional {v : Json} {o : Option α} (h : optional r v = .ok o) :
    o = none ∨ ∃ a, o = some a ∧ r v = .ok a := by
  unfold optional at h
  split at h
  · cases h
    exact Or.inl rfl
  · obtain ⟨a, ha, rfl⟩ := exists_of_map_eq_ok h
    exact Or.inr ⟨a, rfl, ha⟩

theorem optional_of_normal {v : Json} (hv : v.Normal) : optional r v = (r v).map some := by
  cases v with
  | null => exact hv.elim
  | _ => rfl

theorem plain_of_find? (hm : ∀ p ∈ m, p.2.Everywhere Plain) {found : String} {v : Json}
    (h : find? name second m = some (found, v)) : v.Everywhere Plain := by
  -- under either name the value is one of the members
  have hmem : (found, v) ∈ m := by
    unfold find? at h
    rcases Option.or_eq_some_iff.1 h with h | ⟨-, h⟩
    · obtain ⟨v, hv, heq⟩ := Option.map_eq_some_iff.1 h
      exact heq ▸ mem_of_memberOf? hv
    · obtain ⟨s, -, h⟩ := Option.bind_eq_some_iff.1 h
      obtain ⟨v, hv, heq⟩ := Option.map_eq_some_iff.1 h
      exact heq ▸ mem_of_memberOf? hv
  exact hm (found, v) hmem

theorem Shows.find? {n : Nat} {o : Option Json} (h : Shows n [(name, o)] m)
    (hsecond : ∀ s ∈ second, '_' ∈ s.toList) : find? name second m = o.map (name, ·) := by
  have hnone : (second.bind fun s => (memberOf? s m).map (s, ·)) = none := by
    rw [Option.bind_eq_none_iff]
    intro s hs
    rw [h.camel s (hsecond s hs), Option.map_none]
  rw [Schema.find?, hnone, h.found name o List.mem_cons_self, Option.or_none]

/-- A value that is kept is found again in its member. -/
theorem Kept.find? (h : Kept r' w a) {n : Nat} (hm : Shows n [(name, some (w a))] m)
    (hsecond : ∀ s ∈ second, '_' ∈ s.toList) :
    find? name second m = some (name, w a) ∧ r' n (w a) = .ok a :=
  ⟨hm.find? hsecond, h.2 n (hm.depth_le name (w a) List.mem_cons_self)⟩

namespace KeepsMember

theorem requiredOr (hsecond : ∀ s ∈ second, '_' ∈ s.toList) (h : Keeps r r' w) :
    KeepsMember (fun m => required m name r second) (fun n m => required m name (r' n) second)
      fun a => (name, some (w a)) := by
  intro m a hm ha
  obtain ⟨found, v, hfind, hv⟩ := exists_of_required ha
  have hkept := h v a (plain_of_find? hm hfind) hv
  refine ⟨fun v hv => Option.some.inj hv ▸ hkept.1, fun n m' hm' => ?_⟩
  obtain ⟨hfind', hread⟩ := hkept.find? hm' hsecond
  simp only [Schema.required, hfind', hread, within_ok]

theorem required (h : Keeps r r' w) :
    KeepsMember (fun m => required m name r) (fun n m => required m name (r' n))
      fun a => (name, some (w a)) :=
  requiredOr (by simp) h

theorem defaultedOr (hsecond : ∀ s ∈ second, '_' ∈ s.toList) {d : α} (h : Keeps r r' w)
    (hd : Kept r' w d) :
    KeepsMember (fun m => defaulted m name r d second)
      (fun n m => defaulted m name (r' n) d second) fun a => (name, some (w a)) := by
  intro m a hm ha
  have hkept : Kept r' w a := by
    obtain rfl | ⟨found, v, hfind, hv⟩ := of_defaulted ha
    · exact hd
    · exact h v a (plain_of_find? hm hfind) hv
  refine ⟨fun v hv => Option.some.inj hv ▸ hkept.1, fun n m' hm' => ?_⟩
  obtain ⟨hfind', hread⟩ := hkept.find? hm' hsecond
  simp only [Schema.defaulted, hfind', hread, within_ok]

theorem defaulted {d : α} (h : Keeps r r' w) (hd : Kept r' w d) :
    KeepsMember (fun m => defaulted m name r d) (fun n m => defaulted m name (r' n) d)
      fun a => (name, some (w a)) :=
  defaultedOr (by simp) h hd

theorem items (h : Keeps r r' w) :
    KeepsMember (fun m => items m name r) (fun n m => items m name (r' n))
      fun as => (name, some (.arr (as.map w))) :=
  defaulted h.listOf (kept_list nofun)

theorem nullableOr (hsecond : ∀ s ∈ second, '_' ∈ s.toList) (h : Keeps r r' w) :
    KeepsMember (fun m => nullable m name r second) (fun n m => nullable m name (r' n) second)
      fun o => (name, o.map w) := by
  intro m o hm ho
  -- an absent member and a null are read alike, and neither is written
  have hcases : o = none ∨ ∃ a, o = some a ∧ Kept r' w a := by
    obtain rfl | ⟨found, v, hfind, hv⟩ := of_defaulted ho
    · exact Or.inl rfl
    · obtain rfl | ⟨a, rfl, ha⟩ := of_optional hv
      · exact Or.inl rfl
      · exact Or.inr ⟨a, rfl, h v a (plain_of_find? hm hfind) ha⟩
  obtain rfl | ⟨a, rfl, hkept⟩ := hcases
  · refine ⟨nofun, fun n m' hm' => ?_⟩
    simp only [Schema.nullable, Schema.defaulted, hm'.find? hsecond, Option.map_none]
  · refine ⟨fun v hv => Option.some.inj hv ▸ hkept.1, fun n m' hm' => ?_⟩
    obtain ⟨hfind', hread⟩ := hkept.find? hm' hsecond
    simp only [Schema.nullable, Schema.defaulted, hfind', optional_of_normal hkept.1.self.2, hread,
      Except.map, within_ok]

theorem nullable (h : Keeps r r' w) :
    KeepsMember (fun m => nullable m name r) (fun n m => nullable m name (r' n))
      fun o => (name, o.map w) :=
  nullableOr (by simp) h

theorem hasType (typeName : String) :
    KeepsMember (fun m => Schema.hasType m typeName) (fun _ m => Schema.hasType m typeName)
      fun _ => ("type", some (.str typeName)) := by
  intro m _ _ _
  refine ⟨fun v hv => ?_, fun n m' hm' => ?_⟩
  · cases hv
    exact everywhere_of_isLeaf rfl ⟨trivial, trivial⟩
  · have hfound := hm'.found "type" _ List.mem_cons_self
    simp only [Schema.hasType, hfound, if_pos]

end KeepsMember

/-! ## Objects -/

/-- The rest of the members of an object, after those that are written as the given fields: what is
read in the end is written as these fields and others, with the given names, and read from them
again. -/
def KeepsRest (names : List String) (w : β → Json) (before : List (String × Option Json))
    (f : Members → Except Mismatch β) (f' : Nat → Members → Except Mismatch β) : Prop :=
  ∀ m b, (∀ p ∈ m, p.2.Everywhere Plain) → f m = .ok b →
    (∀ k v, (k, some v) ∈ before → v.Everywhere Tidy) →
    ∃ fields, before ⊆ fields ∧ fields.map Prod.fst = names ∧ w b = ofFields fields ∧
      (∀ k v, (k, some v) ∈ fields → v.Everywhere Tidy) ∧
      ∀ n m', Shows n fields m' → f' n m' = .ok b

section

variable {names : List String} {w : β → Json} {before : List (String × Option Json)}
  {f : Members → Except Mismatch β} {f' : Nat → Members → Except Mismatch β}

theorem KeepsRest.pure {b : β} (hw : w b = ofFields before)
    (hnames : before.map Prod.fst = names) :
    KeepsRest names w before (fun _ => Pure.pure b) fun _ _ => Pure.pure b := by
  intro m c _ hc hbefore
  cases hc
  exact ⟨before, List.Subset.refl _, hnames, hw, hbefore, fun _ _ _ => rfl⟩

theorem KeepsRest.bind {g : Members → Except Mismatch α} {g' : Nat → Members → Except Mismatch α}
    {entry : α → String × Option Json} {k : α → Members → Except Mismatch β}
    {k' : α → Nat → Members → Except Mismatch β} (hg : KeepsMember g g' entry)
    (hk : ∀ a, KeepsRest names w (before ++ [entry a]) (k a) (k' a)) :
    KeepsRest names w before (fun m => g m >>= fun a => k a m)
      fun n m => g' n m >>= fun a => k' a n m := by
  intro m b hm hb hbefore
  obtain ⟨a, ha, hb⟩ := exists_of_bind_eq_ok hb
  obtain ⟨htidy, hagain⟩ := hg m a hm ha
  have hbefore' : ∀ j v, (j, some v) ∈ before ++ [entry a] → v.Everywhere Tidy := by
    intro j v hv
    rcases List.mem_append.1 hv with hv | hv
    · exact hbefore j v hv
    · exact htidy v (by rw [← List.mem_singleton.1 hv])
  obtain ⟨fields, hsub, hnames, hw, hfields, hrest⟩ := hk a m b hm hb hbefore'
  refine ⟨fields, fun _ h => hsub (List.mem_append_left _ h), hnames, hw, hfields, ?_⟩
  intro n m' hm'
  -- the members show all fields, so they show the one at hand
  have hentry : Shows n [entry a] m' := hm'.mono fun _ h => hsub (List.mem_append_right _ h)
  show g' n m' >>= _ = _
  rw [hagain n m' hentry]
  exact hrest n m' hm'

/-- The value that is written for an object. -/
theorem KeepsRest.written (h : KeepsRest names w before f f') (hnames : CamelNames names) {b : β}
    (hm : ∀ p ∈ m, p.2.Everywhere Plain) (hb : f m = .ok b)
    (hbefore : ∀ k v, (k, some v) ∈ before → v.Everywhere Tidy) :
    (w b).Everywhere Tidy ∧ (∀ k o, (k, o) ∈ before → (w b).member? k = o) ∧
      ∀ n, (w b).depth ≤ n + 1 → ∃ m', w b = .obj m' ∧ f' n m' = .ok b := by
  obtain ⟨fields, hsub, rfl, hw, hfields, hrest⟩ := h m b hm hb hbefore
  rw [hw]
  refine ⟨everywhere_tidy_ofFields hnames hfields, fun k o ho => ?_, fun n hn => ?_⟩
  · exact memberOf?_membersOf hnames.1 (hsub ho)
  · exact ⟨_, rfl, hrest n _ (shows_membersOf hnames hn)⟩

theorem Keeps.object {typeName : String} (names : List String) (hnames : CamelNames names)
    (h : KeepsRest names w [] f f') :
    Keeps (object typeName f) (fun n => object typeName (f' n)) w := by
  intro v b hv hb
  cases v with
  | obj m =>
    obtain ⟨htidy, -, hread⟩ := h.written hnames (everywhere_obj_iff.1 hv).2 hb nofun
    refine ⟨htidy, fun n hn => ?_⟩
    obtain ⟨m', hw, hm'⟩ := hread n (Nat.le_succ_of_le hn)
    rw [hw]
    exact hm'
  | _ => cases hb

end

/-! ## Unions -/

/-- An alternative of a union: what it reads is written with its tag, and read again. The bound of
its parts may be less by one than the depth of the whole. -/
structure KeepsVariant (x : Variant α) (x' : Nat → Variant α) (w : α → Json) : Prop where
  tag_eq : ∀ n, (x' n).tag = x.tag
  kept : ∀ v a, v.Everywhere Plain → x.read v = .ok a →
    (w a).Everywhere Tidy ∧ (w a).member? "type" = some (.str x.tag) ∧
      ∀ n, (w a).depth ≤ n + 1 → (x' n).read (w a) = .ok a

theorem KeepsVariant.read {x : Variant α} {x' : Nat → Variant α} (h : KeepsVariant x x' w) :
    Keeps x.read (fun n => (x' n).read) w := by
  intro v a hv ha
  obtain ⟨htidy, -, hread⟩ := h.kept v a hv ha
  exact ⟨htidy, fun n hn => hread n (Nat.le_succ_of_le hn)⟩

theorem KeepsVariant.map {x : Variant β} {x' : Nat → Variant β} {w' : β → Json} {f : β → α}
    (h : KeepsVariant x x' w') (hw : ∀ b, w (f b) = w' b) :
    KeepsVariant (x.map f) (fun n => (x' n).map f) w where
  tag_eq := h.tag_eq
  kept v a hv ha := by
    obtain ⟨b, hb, rfl⟩ := exists_of_map_eq_ok ha
    obtain ⟨htidy, htag, hread⟩ := h.kept v b hv hb
    rw [hw]
    refine ⟨htidy, htag, fun n hn => ?_⟩
    show ((x' n).read (w' b)).map f = _
    rw [hread n hn]
    rfl

/-- The alternatives of a union, one by one. -/
inductive KeepsUnion (w : α → Json) : List (Variant α) → (Nat → List (Variant α)) → Prop
  | nil : KeepsUnion w [] fun _ => []
  | cons {x : Variant α} {x' : Nat → Variant α} {xs : List (Variant α)}
      {xs' : Nat → List (Variant α)} (head : KeepsVariant x x' w) (tail : KeepsUnion w xs xs') :
      KeepsUnion w (x :: xs) fun n => x' n :: xs' n

namespace KeepsUnion

variable {xs ys : List (Variant α)} {xs' ys' : Nat → List (Variant α)}

theorem append (hxs : KeepsUnion w xs xs') (hys : KeepsUnion w ys ys') :
    KeepsUnion w (xs ++ ys) fun n => xs' n ++ ys' n := by
  induction hxs with
  | nil => exact hys
  | cons head _ ih => exact .cons head ih

theorem map {zs : List (Variant β)} {zs' : Nat → List (Variant β)} {w' : β → Json} {f : β → α}
    (h : KeepsUnion w' zs zs') (hw : ∀ b, w (f b) = w' b) :
    KeepsUnion w (zs.map (·.map f)) fun n => (zs' n).map (·.map f) := by
  induction h with
  | nil => exact .nil
  | cons head _ ih => exact .cons (head.map hw) ih

/-- The tag of an alternative selects the alternative that reads its values again. -/
theorem kept_of_find? (h : KeepsUnion w xs xs') {s : String} {x : Variant α}
    (hx : xs.find? (fun y => y.tag = s) = some x) {v : Json} (hv : v.Everywhere Plain) {a : α}
    (ha : x.read v = .ok a) :
    (w a).Everywhere Tidy ∧ (w a).member? "type" = some (.str s) ∧
      ∀ n, (w a).depth ≤ n + 1 →
        ∃ y, (xs' n).find? (fun y => y.tag = s) = some y ∧ y.read (w a) = .ok a := by
  induction h with
  | nil => cases hx
  | @cons y y' ys ys' head _ ih =>
    rw [List.find?_cons] at hx
    -- the first alternative with the tag is at the same position on both sides
    by_cases hs : y.tag = s
    · simp only [hs, decide_true, Option.some.injEq] at hx
      subst hx
      obtain ⟨htidy, htag, hread⟩ := head.kept v a hv ha
      refine ⟨htidy, hs ▸ htag, fun n hn => ⟨y' n, ?_, hread n hn⟩⟩
      rw [List.find?_cons_of_pos (by simpa [head.tag_eq n] using hs)]
    · simp only [hs, decide_false] at hx
      obtain ⟨htidy, htag, hread⟩ := ih hx
      refine ⟨htidy, htag, fun n hn => ?_⟩
      rw [List.find?_cons_of_neg (by simpa [head.tag_eq n] using hs)]
      exact hread n hn

theorem exists_of_tagged {v : Json} (ha : tagged xs v = .ok a) :
    ∃ s x, xs.find? (fun y => y.tag = s) = some x ∧ x.read v = .ok a := by
  unfold tagged at ha
  split at ha
  · split at ha
    · cases ha
    · next found _ =>
      split at ha
      · next x hx =>
        -- only a text selects an alternative
        cases found with
        | str s => exact ⟨s, x, hx, within_eq_ok_iff.1 ha⟩
        | _ => cases hx
      · cases ha
  · cases ha

theorem tagged_of_member? {v : Json} {s : String} {x : Variant α}
    (htag : v.member? "type" = some (.str s)) (hx : xs.find? (fun y => y.tag = s) = some x)
    (ha : x.read v = .ok a) : tagged xs v = .ok a := by
  cases v with
  | obj m =>
    have hfound : memberOf? "type" m = some (.str s) := htag
    simp only [tagged, hfound, select?, hx, ha, within_ok]
  | _ => cases htag

/-- What a union reads is read again, also when the bound of the parts is less by one than the depth
of the whole. -/
theorem kept (h : KeepsUnion w xs xs') {v : Json} (hv : v.Everywhere Plain)
    (ha : tagged xs v = .ok a) :
    (w a).Everywhere Tidy ∧ ∀ n, (w a).depth ≤ n + 1 → tagged (xs' n) (w a) = .ok a := by
  obtain ⟨s, x, hx, hread⟩ := exists_of_tagged ha
  obtain ⟨htidy, htag, hagain⟩ := h.kept_of_find? hx hv hread
  refine ⟨htidy, fun n hn => ?_⟩
  obtain ⟨y, hy, hread'⟩ := hagain n hn
  exact tagged_of_member? htag hy hread'

theorem tagged (h : KeepsUnion w xs xs') :
    Keeps (Schema.tagged xs) (fun n => Schema.tagged (xs' n)) w := by
  intro v a hv ha
  obtain ⟨htidy, hread⟩ := h.kept hv ha
  exact ⟨htidy, fun n hn => hread n (Nat.le_succ_of_le hn)⟩

end KeepsUnion

end Schema

end Blueprint
