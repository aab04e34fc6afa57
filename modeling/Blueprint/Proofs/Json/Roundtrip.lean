import Blueprint.Proofs.Json.Members
import Blueprint.Proofs.Json.Numerals
import Blueprint.Proofs.Json.Strings

/-!
# JSON values read back

The text of a value is read as this value, as long as the value is one that a text can stand for:
its whole numbers are not too long, its other numbers are canonical, and the keys of its objects
differ.

- `Json.HasPart`, `Json.Everywhere`: the values in a value, and what holds of all of them.
- `Json.Plain`: the values that a text can stand for, apart from the values in them.
- `Json.value_of_number`: numbers are told from words.
- `Json.elements_chars`, `Json.members_chars`: lists and objects, one value after the other.
- `Json.value_chars`, `Json.decode_render`: values read back.
-/

namespace Blueprint.Json

/-! ## Values in values -/

/-- A value is another one or stands somewhere in it. -/
inductive HasPart : Json → Json → Prop
  | self {v : Json} : HasPart v v
  | item {vs : List Json} {v w : Json} (mem : v ∈ vs) (part : HasPart v w) : HasPart (arr vs) w
  | member {ms : List (String × Json)} {k : String} {v w : Json} (mem : (k, v) ∈ ms)
      (part : HasPart v w) : HasPart (obj ms) w

/-- A property of a value and of every value in it. -/
def Everywhere (P : Json → Prop) (v : Json) : Prop := ∀ w, HasPart v w → P w

variable {P Q : Json → Prop} {v : Json}

theorem Everywhere.self (h : v.Everywhere P) : P v := h v .self

theorem Everywhere.mono (h : v.Everywhere P) (hPQ : ∀ w, P w → Q w) : v.Everywhere Q :=
  fun w hw => hPQ w (h w hw)

theorem everywhere_arr_iff {vs : List Json} :
    (arr vs).Everywhere P ↔ P (arr vs) ∧ ∀ v ∈ vs, v.Everywhere P := by
  constructor
  · exact fun h => ⟨h.self, fun v hv w hw => h w (.item hv hw)⟩
  · rintro ⟨hself, hitems⟩ w (_ | ⟨mem, part⟩)
    · exact hself
    · exact hitems _ mem w part

theorem everywhere_obj_iff {ms : List (String × Json)} :
    (obj ms).Everywhere P ↔ P (obj ms) ∧ ∀ m ∈ ms, m.2.Everywhere P := by
  constructor
  · exact fun h => ⟨h.self, fun m hm w hw => h w (.member hm hw)⟩
  · rintro ⟨hself, hmembers⟩ w (_ | _ | ⟨mem, part⟩)
    · exact hself
    · exact hmembers _ mem w part

/-- Whether a value is neither a list nor an object. -/
def isLeaf : Json → Bool
  | arr _ => false
  | obj _ => false
  | _ => true

theorem everywhere_of_isLeaf (h : v.isLeaf = true) (hv : P v) : v.Everywhere P := by
  rintro w (_ | _ | _)
  · exact hv
  · cases h
  · cases h

/-- What a text can stand for, apart from the values in it: whole numbers that are not too long,
canonical binary64 numbers, and objects whose keys differ. -/
def Plain : Json → Prop
  | int n => (Nat.toDigits 10 n.natAbs).length ≤ maxDigits
  | float x => x.Canonical
  | obj ms => (ms.map Prod.fst).Nodup
  | _ => True

variable {cs rest : List Char}

/-! ## Words and numbers -/

/-- Whether a text begins like a number: with a digit, after a minus sign or not. -/
def startsNumber : List Char → Bool
  | '-' :: c :: _ => c.isDigit
  | c :: _ => c.isDigit
  | [] => false

theorem startsNumber_of_isDigit {c : Char} (h : c.isDigit = true) :
    startsNumber (c :: cs) = true := by
  unfold startsNumber
  split
  · next heq =>
    rw [(List.cons.inj heq).1] at h
    cases h
  · next heq =>
    rwa [← (List.cons.inj heq).1]
  · next heq => cases heq

theorem exists_of_wholePart? {p : List Char × List Char} (h : wholePart? cs = some p) :
    ∃ c tail, cs = c :: tail ∧ c.isDigit = true := by
  unfold wholePart? at h
  split at h
  · exact ⟨'0', _, rfl, rfl⟩
  · next c tail _ =>
    split at h
    · next hc => exact ⟨c, tail, rfl, hc⟩
    · cases h
  · cases h

theorem startsNumber_of_number {r : Json × List Char} (h : number cs = .ok r) :
    startsNumber cs = true := by
  unfold number at h
  split at h
  next sign body heq =>
    split at h
    · next hwhole =>
      obtain ⟨c, tail, hbody, hc⟩ := exists_of_wholePart? hwhole
      split at heq
      · cases heq
        rw [hbody]
        exact hc
      · cases heq
        rw [hbody]
        exact startsNumber_of_isDigit hc
    · cases h

theorem word?_eq_none (h : startsNumber cs = true) : word? cs = none := by
  rw [word?, List.findSome?_eq_none_iff]
  intro w hw
  refine if_neg fun hprefix => ?_
  obtain ⟨tail, rfl⟩ := List.isPrefixOf_iff_prefix.1 hprefix
  simp only [words, List.mem_cons, List.not_mem_nil, or_false] at hw
  -- the one word with a minus sign goes on with a letter
  rcases hw with rfl | rfl | rfl | rfl | rfl | rfl <;> cases h

/-- What is read as a number is read as this value. -/
theorem value_of_number (n : Nat) {r : Json × List Char} (h : number cs = .ok r) :
    value (n + 1) cs = .ok r := by
  have hstarts := startsNumber_of_number h
  unfold value
  split
  · cases hstarts
  · cases hstarts
  · cases hstarts
  · rw [word?_eq_none hstarts]
    exact h

theorem value_float (n : Nat) {x : Binary64} (h : x.Canonical) (hrest : EndsNumber rest) :
    value (n + 1) (floatChars x ++ rest) = .ok (float x, rest) := by
  cases x with
  | nan => rfl
  | infinity negative => cases negative <;> rfl
  | finite negative m s => exact value_of_number n (Binary64.number_chars h hrest)

theorem value_int (n : Nat) {i : Int} (h : (int i).Plain) (hrest : EndsNumber rest) :
    value (n + 1) ((toString i).toList ++ rest) = .ok (int i, rest) :=
  value_of_number n (number_int i h hrest)

/-! ## Lists and objects -/

theorem chars_arr_cons (v : Json) (vs : List Json) :
    (arr (v :: vs)).chars = '[' :: (v.chars ++ itemChars vs) := rfl

theorem itemChars_cons (v : Json) (vs : List Json) :
    itemChars (v :: vs) = ',' :: (v.chars ++ itemChars vs) := rfl

theorem chars_obj_cons (k : String) (v : Json) (ms : List (String × Json)) :
    (obj ((k, v) :: ms)).chars = '{' :: (stringChars k ++ ':' :: (v.chars ++ memberChars ms)) := by
  show '{' :: stringChars k ++ ':' :: v.chars ++ memberChars ms = _
  simp

theorem memberChars_cons (k : String) (v : Json) (ms : List (String × Json)) :
    memberChars ((k, v) :: ms) = ',' :: (stringChars k ++ ':' :: (v.chars ++ memberChars ms)) := by
  show ',' :: stringChars k ++ ':' :: v.chars ++ memberChars ms = _
  simp

/-- The characters that never begin the text of a value but mean something before one. -/
def nonOpeners : List Char := [' ', '\t', '\n', '\r', ']', '}', Char.ofNat 0xfeff]

theorem exists_opener_of_startsNumber (h : startsNumber cs = true) :
    ∃ c tail, cs = c :: tail ∧ c ∉ nonOpeners := by
  have hall : nonOpeners.all (fun c => !c.isDigit) = true := by decide
  rw [List.all_eq_true] at hall
  unfold startsNumber at h
  split at h
  · exact ⟨'-', _, rfl, by decide⟩
  · next c tail _ =>
    refine ⟨c, tail, rfl, fun hc => ?_⟩
    have hdigit := hall c hc
    rw [h] at hdigit
    cases hdigit
  · cases h

/-- Where the text of a value begins. -/
theorem exists_opener_chars {v : Json} (h : v.Plain) :
    ∃ c tail, v.chars = c :: tail ∧ c ∉ nonOpeners := by
  have hnil : EndsNumber [] := fun _ hc => by cases hc
  cases v with
  | null => exact ⟨'n', _, rfl, by decide⟩
  | bool b =>
    cases b with
    | true => exact ⟨'t', _, rfl, by decide⟩
    | false => exact ⟨'f', _, rfl, by decide⟩
  | int i =>
    -- what reads back as a number begins like one
    have hread := number_int i h hnil
    rw [List.append_nil] at hread
    exact exists_opener_of_startsNumber (startsNumber_of_number hread)
  | float x =>
    cases x with
    | nan => exact ⟨'N', _, rfl, by decide⟩
    | infinity negative =>
      cases negative with
      | true => exact ⟨'-', _, rfl, by decide⟩
      | false => exact ⟨'I', _, rfl, by decide⟩
    | finite negative m s =>
      have hcanonical : (Binary64.finite negative m s).Canonical := h
      have hread := Binary64.number_chars hcanonical hnil
      rw [List.append_nil] at hread
      exact exists_opener_of_startsNumber (startsNumber_of_number hread)
  | str s => exact ⟨'"', _, rfl, by decide⟩
  | arr vs => cases vs with
    | nil => exact ⟨'[', _, rfl, by decide⟩
    | cons v vs => exact ⟨'[', _, rfl, by decide⟩
  | obj ms => cases ms with
    | nil => exact ⟨'{', _, rfl, by decide⟩
    | cons m ms => exact ⟨'{', _, rfl, by decide⟩

theorem skipGaps_cons {c : Char} (h : c ∉ nonOpeners) : skipGaps (c :: cs) = c :: cs := by
  have hgap : isGap c = false := by
    simp [nonOpeners] at h
    simp [isGap, h]
  rw [skipGaps, List.dropWhile_cons_of_neg (by simp [hgap])]

theorem skipGaps_chars {v : Json} (h : v.Plain) : skipGaps (v.chars ++ cs) = v.chars ++ cs := by
  obtain ⟨c, tail, hchars, hc⟩ := exists_opener_chars h
  rw [hchars, List.cons_append, skipGaps_cons hc]

variable {item : List Char → Except Stop (Json × List Char)}

/-- A reader of values that reads back what is written for a value. -/
def ReadsBack (item : List Char → Except Stop (Json × List Char)) (v : Json) : Prop :=
  v.Plain ∧ ∀ rest, EndsNumber rest → item (v.chars ++ rest) = .ok (v, rest)

theorem endsNumber_itemChars (vs : List Json) : EndsNumber (itemChars vs ++ rest) := by
  cases vs with
  | nil =>
    rintro _ ⟨⟩
    decide
  | cons v vs =>
    rintro _ ⟨⟩
    decide

theorem endsNumber_memberChars (ms : List (String × Json)) :
    EndsNumber (memberChars ms ++ rest) := by
  cases ms with
  | nil =>
    rintro _ ⟨⟩
    decide
  | cons m ms =>
    rintro _ ⟨⟩
    decide

/-- The elements of a list read back one after the other. -/
theorem elements_chars (rest : List Char) {vs : List Json} {v : Json} (acc : List Json)
    {bound : Nat} (hitem : ∀ w ∈ v :: vs, ReadsBack item w) (hbound : vs.length < bound) :
    elements item bound acc (v.chars ++ (itemChars vs ++ rest)) =
      .ok (acc.reverse ++ v :: vs, rest) := by
  induction vs generalizing v acc bound with
  | nil =>
    obtain ⟨b, rfl⟩ : ∃ b, bound = b + 1 := ⟨bound - 1, by omega⟩
    obtain ⟨-, hread⟩ := hitem v List.mem_cons_self
    rw [elements, hread _ (endsNumber_itemChars [])]
    show Except.ok ((v :: acc).reverse, rest) = _
    rw [List.reverse_cons]
  | cons w vs ih =>
    obtain ⟨b, rfl⟩ : ∃ b, bound = b + 1 := ⟨bound - 1, by omega⟩
    rw [List.forall_mem_cons] at hitem
    -- what follows the comma is no gap, so that nothing is skipped before the next element
    obtain ⟨hplain, -⟩ := hitem.2 w List.mem_cons_self
    rw [elements, hitem.1.2 _ (endsNumber_itemChars (w :: vs))]
    have hnext := ih (v :: acc) hitem.2 (Nat.lt_of_succ_lt_succ hbound)
    simp only [itemChars_cons, bind, Except.bind, List.cons_append, List.append_assoc]
    rw [skipGaps_cons (by decide)]
    simp only [skipGaps_chars hplain, hnext]
    simp

theorem not_mem_of_nodup_keys {k : String} {v : Json} {acc ms : List (String × Json)}
    (h : ((acc ++ (k, v) :: ms).map Prod.fst).Nodup) : k ∉ acc.map Prod.fst := by
  rw [List.map_append, List.nodup_append] at h
  exact fun hk => h.2.2 k hk k List.mem_cons_self rfl

section

variable {k : String} {v : Json} (hitem : ReadsBack item v) (bound : Nat)
  (acc : List (String × Json)) {more : List Char} (hmore : EndsNumber more)
include hitem hmore

/-- The last member reads back. -/
theorem members_last (hlast : skipGaps more = '}' :: rest) :
    members item (bound + 1) acc (stringChars k ++ ':' :: (v.chars ++ more)) =
      .ok (setMember k v acc, rest) := by
  simp only [members, stringChars, List.cons_append, List.append_assoc, List.nil_append,
    string_stringChars, bind, Except.bind]
  rw [skipGaps_cons (by decide)]
  simp only [skipGaps_chars hitem.1, hitem.2 more hmore, hlast]

/-- A member before another one reads back, and reading goes on after it. -/
theorem members_next (hnext : skipGaps more = ',' :: rest) :
    members item (bound + 1) acc (stringChars k ++ ':' :: (v.chars ++ more)) =
      members item bound (setMember k v acc) (skipGaps rest) := by
  simp only [members, stringChars, List.cons_append, List.append_assoc, List.nil_append,
    string_stringChars, bind, Except.bind]
  rw [skipGaps_cons (by decide)]
  simp only [skipGaps_chars hitem.1, hitem.2 more hmore, hnext]

end

/-- The members of an object read back one after the other. -/
theorem members_chars (rest : List Char) {ms : List (String × Json)} {k : String} {v : Json}
    (acc : List (String × Json)) {bound : Nat}
    (hkeys : ((acc ++ (k, v) :: ms).map Prod.fst).Nodup)
    (hitem : ∀ m ∈ (k, v) :: ms, ReadsBack item m.2) (hbound : ms.length < bound) :
    members item bound acc (stringChars k ++ ':' :: (v.chars ++ (memberChars ms ++ rest))) =
      .ok (acc ++ (k, v) :: ms, rest) := by
  induction ms generalizing k v acc bound with
  | nil =>
    obtain ⟨b, rfl⟩ : ∃ b, bound = b + 1 := ⟨bound - 1, by omega⟩
    have hbrace : skipGaps (memberChars [] ++ rest) = '}' :: rest := rfl
    rw [members_last (hitem _ List.mem_cons_self) b acc (endsNumber_memberChars []) hbrace,
      setMember_of_not_mem v (not_mem_of_nodup_keys hkeys)]
  | cons m ms ih =>
    obtain ⟨b, rfl⟩ : ∃ b, bound = b + 1 := ⟨bound - 1, by omega⟩
    obtain ⟨k', v'⟩ := m
    rw [List.forall_mem_cons] at hitem
    have hnext := ih (k := k') (v := v') (acc ++ [(k, v)]) (by simpa using hkeys) hitem.2
      (Nat.lt_of_succ_lt_succ hbound)
    have hcomma : skipGaps (memberChars ((k', v') :: ms) ++ rest) =
        ',' :: (stringChars k' ++ ':' :: (v'.chars ++ (memberChars ms ++ rest))) := by
      simp only [memberChars_cons, List.cons_append, List.append_assoc]
      exact skipGaps_cons (by decide)
    -- each key is new, so that members stay in their order
    rw [members_next hitem.1 b acc (endsNumber_memberChars _) hcomma,
      setMember_of_not_mem v (not_mem_of_nodup_keys hkeys)]
    simp only [stringChars, List.cons_append] at hnext ⊢
    rw [skipGaps_cons (by decide), hnext]
    simp

/-! ## Values -/

theorem depth_pos (v : Json) : 0 < v.depth := by
  cases v <;> simp [depth]

theorem depth_le_depthItems {vs : List Json} {v : Json} (h : v ∈ vs) : v.depth ≤ depthItems vs := by
  induction vs with
  | nil => cases h
  | cons w vs ih =>
    rw [depthItems]
    rcases List.mem_cons.1 h with rfl | h
    · exact Nat.le_max_left ..
    · exact Nat.le_trans (ih h) (Nat.le_max_right ..)

theorem depth_le_depthMembers {ms : List (String × Json)} {m : String × Json} (h : m ∈ ms) :
    m.2.depth ≤ depthMembers ms := by
  induction ms with
  | nil => cases h
  | cons w ms ih =>
    rw [depthMembers]
    rcases List.mem_cons.1 h with rfl | h
    · exact Nat.le_max_left ..
    · exact Nat.le_trans (ih h) (Nat.le_max_right ..)

theorem length_lt_itemChars (vs : List Json) : vs.length < (itemChars vs).length := by
  induction vs with
  | nil => exact Nat.one_pos
  | cons v vs ih =>
    simp only [itemChars_cons, List.length_cons, List.length_append]
    omega

theorem length_lt_memberChars (ms : List (String × Json)) :
    ms.length < (memberChars ms).length := by
  induction ms with
  | nil => exact Nat.one_pos
  | cons m ms ih =>
    rw [show memberChars (m :: ms) = _ from memberChars_cons m.1 m.2 ms]
    simp only [List.length_cons, List.length_append]
    omega

theorem value_of_elements {n : Nat} {c : Char} {tail : List Char} {vs : List Json}
    (hc : c ∉ nonOpeners)
    (h : elements (value n) ((c :: tail).length + 1) [] (c :: tail) = .ok (vs, rest)) :
    value (n + 1) ('[' :: c :: tail) = .ok (arr vs, rest) := by
  rw [value, skipGaps_cons hc]
  split
  · next heq =>
    rw [(List.cons.inj heq).1] at hc
    exact absurd hc (by decide)
  · rw [h]
    rfl

theorem value_of_members {n : Nat} {c : Char} {tail : List Char} {ms : List (String × Json)}
    (hc : c ∉ nonOpeners)
    (h : members (value n) ((c :: tail).length + 1) [] (c :: tail) = .ok (ms, rest)) :
    value (n + 1) ('{' :: c :: tail) = .ok (obj ms, rest) := by
  rw [value, skipGaps_cons hc]
  split
  · next heq =>
    rw [(List.cons.inj heq).1] at hc
    exact absurd hc (by decide)
  · rw [h]
    rfl

/-- **A value reads back**, with any bound that its depth does not exceed and before anything that
cannot be taken for a part of it. -/
theorem value_chars {n : Nat} {v : Json} (hv : v.Everywhere Plain) (hn : v.depth ≤ n)
    (hrest : EndsNumber rest) : value n (v.chars ++ rest) = .ok (v, rest) := by
  -- on the bound, which is one less for the values in the value
  induction n generalizing v rest with
  | zero => cases v <;> simp [depth] at hn
  | succ n ih =>
    cases v with
    | null => rfl
    | bool b => cases b <;> rfl
    | int i => exact value_int n hv.self hrest
    | float x => exact value_float n hv.self hrest
    | str s =>
      show (string (s.toList.flatMap stringChar ++ ['"'] ++ rest) >>= fun p =>
        .ok (str p.1, p.2)) = _
      rw [List.append_assoc, List.singleton_append, string_stringChars]
      rfl
    | arr vs =>
      obtain ⟨-, hitems⟩ := everywhere_arr_iff.1 hv
      have hread : ∀ w ∈ vs, ReadsBack (value n) w := fun w hw =>
        ⟨(hitems w hw).self, fun rest hrest => ih (hitems w hw)
          (Nat.le_trans (depth_le_depthItems hw) (Nat.le_of_succ_le_succ hn)) hrest⟩
      cases vs with
      | nil => rfl
      | cons v vs =>
        obtain ⟨c, tail, hchars, hc⟩ := exists_opener_chars (hread v List.mem_cons_self).1
        have hlength := length_lt_itemChars vs
        have hitems := elements_chars rest [] hread
          (show vs.length < (v.chars ++ (itemChars vs ++ rest)).length + 1 by
            simp only [List.length_append]
            omega)
        simp only [chars_arr_cons, List.cons_append, List.append_assoc]
        rw [hchars, List.cons_append] at hitems ⊢
        exact value_of_elements hc hitems
    | obj ms =>
      obtain ⟨hkeys, hmembers⟩ := everywhere_obj_iff.1 hv
      have hread : ∀ m ∈ ms, ReadsBack (value n) m.2 := fun m hm =>
        ⟨(hmembers m hm).self, fun rest hrest => ih (hmembers m hm)
          (Nat.le_trans (depth_le_depthMembers hm) (Nat.le_of_succ_le_succ hn)) hrest⟩
      cases ms with
      | nil => rfl
      | cons m ms =>
        obtain ⟨k, v⟩ := m
        have hlength := length_lt_memberChars ms
        have hbound : ms.length <
            (stringChars k ++ ':' :: (v.chars ++ (memberChars ms ++ rest))).length + 1 := by
          simp only [List.length_append, List.length_cons]
          omega
        have hread' := members_chars rest [] hkeys hread hbound
        simp only [chars_obj_cons, List.cons_append, List.append_assoc]
        exact value_of_members (by decide) hread'

mutual

theorem depth_le_length_chars : ∀ v : Json, v.depth ≤ v.chars.length + 1
  | null => by decide
  | bool true => by decide
  | bool false => by decide
  | int _ => Nat.le_add_left ..
  | float _ => Nat.le_add_left ..
  | str _ => Nat.le_add_left ..
  | arr [] => by decide
  | arr (v :: vs) => by
    have hv := depth_le_length_chars v
    have hvs := depthItems_le_length_chars vs
    simp only [depth, depthItems, chars_arr_cons, List.length_cons, List.length_append]
    omega
  | obj [] => by decide
  | obj ((k, v) :: ms) => by
    have hv := depth_le_length_chars v
    have hms := depthMembers_le_length_chars ms
    simp only [depth, depthMembers, chars_obj_cons, List.length_cons, List.length_append]
    omega

theorem depthItems_le_length_chars : ∀ vs : List Json, depthItems vs ≤ (itemChars vs).length
  | [] => Nat.zero_le _
  | v :: vs => by
    have hv := depth_le_length_chars v
    have hvs := depthItems_le_length_chars vs
    simp only [depthItems, itemChars_cons, List.length_cons, List.length_append]
    omega

theorem depthMembers_le_length_chars :
    ∀ ms : List (String × Json), depthMembers ms ≤ (memberChars ms).length
  | [] => Nat.zero_le _
  | (k, v) :: ms => by
    have hv := depth_le_length_chars v
    have hms := depthMembers_le_length_chars ms
    simp only [depthMembers, memberChars_cons, List.length_cons, List.length_append]
    omega

end

/-- **The text of a value is read as this value.** -/
theorem decode_render {v : Json} (hv : v.Everywhere Plain) : decode v.render = .ok v := by
  have hnil : EndsNumber [] := fun _ hc => by cases hc
  have hread := value_chars hv (depth_le_length_chars v) hnil
  have hgaps : skipGaps (v.chars ++ []) = v.chars ++ [] := skipGaps_chars hv.self
  obtain ⟨c, tail, hchars, hc⟩ := exists_opener_chars hv.self
  have hmark : v.chars.head? ≠ some (Char.ofNat 0xfeff) := by
    rw [hchars]
    rintro ⟨⟩
    exact hc (by decide)
  rw [List.append_nil] at hread hgaps
  have hdocument : document v.chars = .ok v := by
    simp only [document, if_neg hmark, hgaps, hread, bind, Except.bind, pure, Except.pure]
    rfl
  rw [decode, render, String.toList_ofList, hdocument]
  rfl

end Blueprint.Json
