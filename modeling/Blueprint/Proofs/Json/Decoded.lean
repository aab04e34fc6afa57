import Blueprint.Proofs.Json.Roundtrip
import Blueprint.Schema

/-!
# Values that were read

Every value that a text is read as can be written as a text again. The reader refuses whole numbers
that are too long, rounds the others, and keeps one value for each key of an object.

- `Json.plain_number`, `Json.plain_word`: numbers and words.
- `Json.everywhere_of_elements`, `Json.everywhere_of_members`: the loops over lists and objects.
- `Json.everywhere_plain_decode`: whole texts.
-/

namespace Blueprint.Json

open Schema (exists_of_bind_eq_ok)

variable {cs rest : List Char} {P : Json → Prop}
  {item : List Char → Except Stop (Json × List Char)}

theorem ofDigits_lt {ds : List Char} (h : ∀ c ∈ ds, c.isDigit = true) :
    ofDigits ds < Nat.pow 10 ds.length := by
  induction ds with
  | nil => decide
  | cons c ds ih =>
    rw [List.forall_mem_cons] at h
    have hrest : ofDigits ds < 10 ^ ds.length := ih h.2
    have hc : ofDigits [c] ≤ 9 := by
      have hdigit := h.1
      simp only [Char.isDigit, Bool.and_eq_true, decide_eq_true_eq] at hdigit
      have hle : c.toNat ≤ 57 := hdigit.2
      show 10 * 0 + (c.toNat - 48) ≤ 9
      omega
    -- the first digit counts for at most nine powers of ten, and the others for less than one
    have hfirst : ofDigits [c] * 10 ^ ds.length ≤ 9 * 10 ^ ds.length := Nat.mul_le_mul_right _ hc
    have hvalue : ofDigits (c :: ds) = ofDigits [c] * 10 ^ ds.length + ofDigits ds :=
      ofDigits_append [c] ds
    show _ < 10 ^ (ds.length + 1)
    rw [hvalue, Nat.pow_succ]
    omega

theorem plain_int_of_lt {n : Int} {k : Nat} (hpos : 0 < k) (hk : k ≤ maxDigits)
    (hn : n.natAbs < Nat.pow 10 k) : (int n).Plain :=
  Nat.le_trans ((Nat.length_toDigits_le_iff (by decide) hpos).2 hn) hk

theorem of_wholePart? {whole : List Char} (h : wholePart? cs = some (whole, rest)) :
    0 < whole.length ∧ ∀ c ∈ whole, c.isDigit = true := by
  unfold wholePart? at h
  split at h
  · cases h
    exact ⟨Nat.one_pos, by simp⟩
  · next c tail _ =>
    split at h
    · next hc =>
      cases h
      refine ⟨?_, fun c hc => List.mem_takeWhile_imp hc⟩
      rw [List.takeWhile_cons_of_pos hc]
      exact Nat.succ_pos _
    · cases h
  · cases h

/-- A number that was read is plain. -/
theorem plain_number {v : Json} (h : number cs = .ok (v, rest)) : v.isLeaf = true ∧ v.Plain := by
  unfold number at h
  split at h
  next negative body _ =>
    split at h
    · next whole after hwhole =>
      obtain ⟨hpos, hdigits⟩ := of_wholePart? hwhole
      simp only [unsignedNumber] at h
      split at h
      · split at h
        · cases h
        · next hlength =>
          cases h
          refine ⟨rfl, ?_⟩
          have habs (n : Nat) : (if negative = true then -(n : Int) else n).natAbs = n := by
            split <;> simp
          refine plain_int_of_lt hpos (Nat.not_lt.1 hlength) ?_
          rw [habs]
          exact ofDigits_lt hdigits
      · cases h
        exact ⟨rfl, Binary64.canonical_ofDecimal ..⟩
    · cases h

theorem plain_word {v : Json} (h : word? cs = some (v, rest)) : v.isLeaf = true ∧ v.Plain := by
  obtain ⟨w, hw, hsome⟩ := List.exists_of_findSome?_eq_some h
  split at hsome
  · cases hsome
    simp only [words, List.mem_cons, List.not_mem_nil, or_false] at hw
    rcases hw with rfl | rfl | rfl | rfl | rfl | rfl <;> exact ⟨rfl, trivial⟩
  · cases hsome

theorem everywhere_of_elements
    (hitem : ∀ cs v rest, item cs = .ok (v, rest) → v.Everywhere P) {bound : Nat} {vs : List Json}
    (acc : List Json) (hacc : ∀ v ∈ acc, v.Everywhere P)
    (h : elements item bound acc cs = .ok (vs, rest)) : ∀ v ∈ vs, v.Everywhere P := by
  induction bound generalizing acc cs with
  | zero => cases h
  | succ bound ih =>
    rw [elements] at h
    cases hread : item cs with
    | error stop =>
      rw [hread] at h
      cases h
    | ok p =>
      obtain ⟨v, more⟩ := p
      have hnext : ∀ w ∈ v :: acc, w.Everywhere P :=
        List.forall_mem_cons.2 ⟨hitem cs v more hread, hacc⟩
      simp only [hread, bind, Except.bind] at h
      split at h
      · cases h
        exact fun w hw => hnext w (List.mem_reverse.1 hw)
      · exact ih _ hnext h
      · cases h

theorem everywhere_of_members
    (hitem : ∀ cs v rest, item cs = .ok (v, rest) → v.Everywhere P) {bound : Nat}
    {ms : List (String × Json)} (acc : List (String × Json)) (hkeys : (acc.map Prod.fst).Nodup)
    (hacc : ∀ m ∈ acc, m.2.Everywhere P) (h : members item bound acc cs = .ok (ms, rest)) :
    (ms.map Prod.fst).Nodup ∧ ∀ m ∈ ms, m.2.Everywhere P := by
  induction bound generalizing acc cs with
  | zero => cases h
  | succ bound ih =>
    unfold members at h
    split at h
    · obtain ⟨⟨key, after⟩, -, h⟩ := exists_of_bind_eq_ok h
      dsimp only at h
      split at h
      · obtain ⟨⟨v, more⟩, hread, h⟩ := exists_of_bind_eq_ok h
        dsimp only at h
        -- a key that comes again replaces the member, so keys stay distinct
        have hkeys' := nodup_setMember hkeys key v
        have hacc' : ∀ m ∈ setMember key v acc, m.2.Everywhere P := by
          intro m hm
          rcases of_mem_setMember hm with hv | hm
          · rw [hv]
            exact hitem _ v more hread
          · exact hacc m hm
        split at h
        · cases h
          exact ⟨hkeys', hacc'⟩
        · exact ih _ hkeys' hacc' h
        · cases h
      · cases h
    · cases h

/-- A value that was read is plain, and so is every value in it. -/
theorem everywhere_plain_value {n : Nat} {v : Json} (h : value n cs = .ok (v, rest)) :
    v.Everywhere Plain := by
  induction n generalizing cs v rest with
  | zero => cases h
  | succ n ih =>
    unfold value at h
    split at h
    · obtain ⟨⟨s, after⟩, -, h⟩ := exists_of_bind_eq_ok h
      cases h
      exact everywhere_of_isLeaf rfl trivial
    · split at h
      · cases h
        exact everywhere_obj_iff.2 ⟨List.nodup_nil, List.forall_mem_nil _⟩
      · obtain ⟨⟨ms, after⟩, hmembers, h⟩ := exists_of_bind_eq_ok h
        cases h
        exact everywhere_obj_iff.2 <|
          everywhere_of_members (fun _ _ _ => ih) [] List.nodup_nil (List.forall_mem_nil _) hmembers
    · split at h
      · cases h
        exact everywhere_arr_iff.2 ⟨trivial, List.forall_mem_nil _⟩
      · obtain ⟨⟨vs, after⟩, hitems, h⟩ := exists_of_bind_eq_ok h
        cases h
        exact everywhere_arr_iff.2
          ⟨trivial, everywhere_of_elements (fun _ _ _ => ih) [] (List.forall_mem_nil _) hitems⟩
    · split at h
      · next hword =>
        cases h
        obtain ⟨hleaf, hplain⟩ := plain_word hword
        exact everywhere_of_isLeaf hleaf hplain
      · obtain ⟨hleaf, hplain⟩ := plain_number h
        exact everywhere_of_isLeaf hleaf hplain

/-- **What a text was read as is plain.** -/
theorem everywhere_plain_decode {source : String} {v : Json} (h : decode source = .ok v) :
    v.Everywhere Plain := by
  have hdocument : document source.toList = .ok v := by
    rw [decode] at h
    cases hread : document source.toList with
    | error stop =>
      rw [hread] at h
      cases h
    | ok w =>
      rw [hread] at h
      cases h
      rfl
  simp only [document] at hdocument
  split at hdocument
  · cases hdocument
  · obtain ⟨⟨w, after⟩, hvalue, hdocument⟩ := exists_of_bind_eq_ok hdocument
    dsimp only at hdocument
    split at hdocument
    · cases hdocument
      exact everywhere_plain_value hvalue
    · cases hdocument

end Blueprint.Json
