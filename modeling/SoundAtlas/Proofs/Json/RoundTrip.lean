import SoundAtlas.Proofs.Json.Tokens

/-!
Documents are read back as they were written, on one line or indented: those without floats whose
whole numbers are within the limit, whose objects have each key once, and which are not nested too
deeply.
-/

namespace SoundAtlas.Json

/-- A document that can be read back once it has been written, nested to the given depth at most. -/
inductive Legible : ℕ → Json → Prop where
  | null {depth : ℕ} : Legible depth .null
  | bool {depth : ℕ} (b : Bool) : Legible depth (.bool b)
  | int {depth : ℕ} {n : ℤ} (hn : Number.withinLimit n = true) : Legible depth (.int n)
  | string {depth : ℕ} (s : String) : Legible depth (.string s)
  | arr {depth : ℕ} {vs : List Json} (h : ∀ v ∈ vs, Legible depth v) : Legible (depth + 1) (.arr vs)
  | object {depth : ℕ} {ms : List (String × Json)} (hkeys : (ms.map (·.1)).Nodup)
    (h : ∀ m ∈ ms, Legible depth m.2) : Legible (depth + 1) (.object ms)

/-- A layout that puts nothing but white space between items. -/
structure Layout.Spaced (l : Layout) : Prop where
  before : ∀ depth, ∀ c ∈ (l.before depth).toList, isSpace c = true
  separator : ∃ spaces : List Char, l.separator.toList = ',' :: spaces ∧
    ∀ c ∈ spaces, isSpace c = true

lemma Layout.spaced_line : Layout.line.Spaced where
  before depth c hc := by simp [Layout.line] at hc
  separator := ⟨[' '], by simp [Layout.line], by simp [isSpace]⟩

lemma Layout.spaced_indented : Layout.indented.Spaced where
  before depth c hc := by
    have hc : c = '\n' ∨ c = ' ' := by
      simp [Layout.indented] at hc
      tauto
    rcases hc with rfl | rfl <;> decide
  separator := ⟨[], by simp [Layout.indented], by simp⟩

variable {l : Layout} {cs spaces : List Char} {c : Char} {depth k fuel : ℕ}

/-! ### White space -/

lemma skipSpace_append (hs : ∀ c ∈ spaces, isSpace c = true) (hc : isSpace c = false) :
    skipSpace (spaces ++ c :: cs) = c :: cs := by
  rw [skipSpace, List.dropWhile_append_of_pos hs, List.dropWhile_cons_of_neg (by simp [hc])]

/-- Whether a character begins a value: it is no white space, and closes no bracket. -/
def begins (c : Char) : Bool :=
  !isSpace c && c != ']' && c != '}'

def Starts (cs : List Char) : Prop :=
  ∃ c r, cs = c :: r ∧ begins c = true

lemma starts_cons (hc : begins c = true) : Starts (c :: cs) :=
  ⟨c, cs, rfl, hc⟩

lemma Starts.append {r : List Char} (h : Starts r) (cs : List Char) : Starts (r ++ cs) := by
  obtain ⟨c, r, rfl, hc⟩ := h
  exact starts_cons hc

lemma skipSpace_starts {r : List Char} (hs : ∀ c ∈ spaces, isSpace c = true) (h : Starts r) :
    skipSpace (spaces ++ r) = r := by
  obtain ⟨c, r, rfl, hc⟩ := h
  refine skipSpace_append hs ?_
  simp only [begins, Bool.and_eq_true, Bool.not_eq_true'] at hc
  exact hc.1.1

lemma begins_of_isDigit (hc : c.isDigit = true) : begins c = true := by
  by_contra hb
  simp only [begins, isSpace, bne, Bool.and_eq_true, Bool.not_eq_true', Bool.or_eq_false_iff,
    beq_eq_false_iff_ne] at hb
  have hne {d : Char} (hd : d.isDigit = false) := ne_of_isDigit hc hd
  exact hb ⟨⟨⟨⟨⟨hne (by decide), hne (by decide)⟩, hne (by decide)⟩, hne (by decide)⟩,
    hne (by decide)⟩, hne (by decide)⟩

lemma starts_toString (n : ℤ) : Starts (toString n).toList := by
  rw [toList_toString]
  split
  · exact starts_cons (by decide)
  · obtain ⟨c, ds, hds, hc⟩ := exists_toDigits n.natAbs
    rw [hds]
    exact starts_cons (begins_of_isDigit hc)

lemma toList_stringText (s : String) : (stringText (.chars s)).toList =
    '"' :: ((s.toList.map Char.toNat).flatMap codeText ++ ['"']) := by
  rw [stringText, String.toList_ofList]
  rfl

lemma Legible.starts {v : Json} (h : Legible depth v) (l : Layout) (k : ℕ) :
    Starts (v.render l k).toList := by
  cases h with
  | null =>
    rw [render]
    exact starts_cons (c := 'n') rfl
  | bool b =>
    rw [render]
    cases b with
    | false => exact starts_cons (c := 'f') rfl
    | true => exact starts_cons (c := 't') rfl
  | int hn =>
    rw [render]
    exact starts_toString _
  | string s =>
    rw [Json.string, render, toList_stringText]
    exact starts_cons rfl
  | @arr _ vs h =>
    cases vs with
    | nil =>
      rw [render]
      exact starts_cons (c := '[') rfl
    | cons v vs =>
      simp only [render, String.toList_append, List.append_assoc]
      exact starts_cons (c := '[') rfl
  | @object _ ms hkeys h =>
    cases ms with
    | nil =>
      rw [Json.object, List.map_nil, render]
      exact starts_cons (c := '\x7b') rfl
    | cons m ms =>
      simp only [Json.object, List.map_cons, render, String.toList_append, List.append_assoc]
      exact starts_cons (c := '\x7b') rfl

/-! ### What follows a value -/

/-- What may follow a value: the end, white space, a comma or a closing bracket. -/
def follows (c : Char) : Bool :=
  isSpace c || c == ',' || c == ']' || c == '\x7d'

lemma endsNumber_of_follows (hc : follows c = true) : EndsNumber (c :: cs) := by
  intro d hd
  obtain rfl : c = d := by simpa using hd
  simp only [follows, isSpace, Bool.or_eq_true, beq_iff_eq] at hc
  rcases hc with (((((rfl | rfl) | rfl) | rfl) | rfl) | rfl) | rfl <;> decide

/-- Items are followed by white space and a closing bracket. -/
lemma endsNumber_append (hs : ∀ c ∈ spaces, isSpace c = true) (hc : follows c = true) :
    EndsNumber (spaces ++ c :: cs) := by
  cases spaces with
  | nil => exact endsNumber_of_follows hc
  | cons d ds =>
    exact endsNumber_of_follows (by simp [follows, hs d List.mem_cons_self])

lemma length_render_pos {v : Json} (h : Legible depth v) (l : Layout) (k : ℕ) :
    0 < (v.render l k).toList.length := by
  obtain ⟨c, r, hr, -⟩ := h.starts l k
  rw [hr]
  exact Nat.succ_pos _

/-! ### Members -/

lemma setMember_of_not_mem {key : Text} {value : Json} {ms : List (Text × Json)}
    (h : key ∉ ms.map (·.1)) : setMember key value ms = ms ++ [(key, value)] := by
  induction ms with
  | nil => rfl
  | cons m ms ih =>
    rw [List.map_cons, List.mem_cons, not_or] at h
    rw [setMember, if_neg (Ne.symm h.1), ih h.2, List.cons_append]

lemma foldl_setMember {ms done : List (Text × Json)} (h : ((done ++ ms).map (·.1)).Nodup) :
    ms.foldl (fun acc m => setMember m.1 m.2 acc) done = done ++ ms := by
  induction ms generalizing done with
  | nil => simp
  | cons m ms ih =>
    have hnot : m.1 ∉ done.map (·.1) := by
      intro hmem
      rw [List.map_append, List.nodup_append] at h
      exact h.2.2 _ hmem _ (by simp) rfl
    rw [List.foldl_cons, setMember_of_not_mem hnot, ih (by simpa using h)]
    simp

lemma ofMembers_eq_object {ms : List (String × Json)} (h : (ms.map (·.1)).Nodup) :
    ofMembers (ms.map fun m => (.chars m.1, m.2)) = .object ms := by
  have hnodup : ((ms.map fun m => ((.chars m.1 : Text), m.2)).map (·.1)).Nodup := by
    rw [List.map_map]
    have hmap : (Prod.fst ∘ fun m : String × Json => ((.chars m.1 : Text), m.2)) =
        Text.chars ∘ Prod.fst := rfl
    rw [hmap, ← List.map_map]
    exact h.map fun a b hab => Text.chars.inj hab
  rw [ofMembers, foldl_setMember (by simpa using hnodup), List.nil_append]
  rfl

/-! ### Scalars -/

lemma value_scalar {r : List Char} (hq : c ≠ '"') (ha : c ≠ '[') (ho : c ≠ '\x7b') :
    value (fuel + 1) depth (c :: r) = scalar (c :: r) := by
  rw [value.eq_def]
  dsimp only
  split
  · rename_i heq
    exact absurd (List.cons.inj heq).1 hq
  · rename_i heq
    exact absurd (List.cons.inj heq).1 ha
  · rename_i heq
    exact absurd (List.cons.inj heq).1 ha
  · rename_i heq
    exact absurd (List.cons.inj heq).1 ho
  · rename_i heq
    exact absurd (List.cons.inj heq).1 ho
  · rfl

lemma scalar_toString (n : ℤ) (cs : List Char) :
    scalar ((toString n).toList ++ cs) = number ((toString n).toList ++ cs) := by
  obtain ⟨c, ds, hds, hc⟩ := exists_toDigits n.natAbs
  rw [toList_toString, hds]
  split
  · unfold scalar
    split <;> rename_i heq
    · cases heq
    · cases heq
    · cases heq
    · cases heq
    · cases heq
    · exact absurd (List.cons.inj (List.cons.inj heq).2).1 (ne_of_isDigit hc (by decide))
    · rfl
  · unfold scalar
    split <;> rename_i heq
    · exact absurd (List.cons.inj heq).1 (ne_of_isDigit hc (by decide))
    · exact absurd (List.cons.inj heq).1 (ne_of_isDigit hc (by decide))
    · exact absurd (List.cons.inj heq).1 (ne_of_isDigit hc (by decide))
    · exact absurd (List.cons.inj heq).1 (ne_of_isDigit hc (by decide))
    · exact absurd (List.cons.inj heq).1 (ne_of_isDigit hc (by decide))
    · exact absurd (List.cons.inj heq).1 (ne_of_isDigit hc (by decide))
    · rfl

lemma value_toString {n : ℤ} (hn : Number.withinLimit n = true) (h : EndsNumber cs) :
    value (fuel + 1) depth ((toString n).toList ++ cs) = .ok (.int n, cs) := by
  have hhead : ∃ c r, (toString n).toList = c :: r ∧ c ≠ '"' ∧ c ≠ '[' ∧ c ≠ '\x7b' := by
    obtain ⟨c, ds, hds, hc⟩ := exists_toDigits n.natAbs
    rw [toList_toString, hds]
    split
    · exact ⟨_, _, rfl, by decide, by decide, by decide⟩
    · exact ⟨_, _, rfl, ne_of_isDigit hc (by decide), ne_of_isDigit hc (by decide),
        ne_of_isDigit hc (by decide)⟩
  obtain ⟨c, r, hr, hq, ha, ho⟩ := hhead
  calc value (fuel + 1) depth ((toString n).toList ++ cs)
      = scalar ((toString n).toList ++ cs) := by
        rw [hr, List.cons_append, value_scalar hq ha ho]
    _ = .ok (.int n, cs) := by rw [scalar_toString, number_toString hn h]

/-! ### Brackets -/

section Brackets

variable {r : List Char} {v : Json} {vs : List Json} {key : Text} {ms : List (Text × Json)}

lemma value_arr (hs : Starts r) (hr : skipSpace cs = r) {rest : List Char}
    (hi : items fuel depth r = .ok (vs, rest)) :
    value (fuel + 1) (depth + 1) ('[' :: cs) = .ok (.arr vs, rest) := by
  obtain ⟨c, r', rfl, hc⟩ := hs
  rw [value]
  split
  · rename_i heq
    obtain rfl : c = ']' := (List.cons.inj (hr.symm.trans heq)).1
    exact absurd hc (by decide)
  · rw [hr, hi]
    rfl

lemma value_obj (hs : Starts r) (hr : skipSpace cs = r) {rest : List Char}
    (hi : members fuel depth r = .ok (ms, rest)) :
    value (fuel + 1) (depth + 1) ('\x7b' :: cs) = .ok (.ofMembers ms, rest) := by
  obtain ⟨c, r', rfl, hc⟩ := hs
  rw [value]
  split
  · rename_i heq
    obtain rfl : c = '\x7d' := (List.cons.inj (hr.symm.trans heq)).1
    exact absurd hc (by decide)
  · rw [hr, hi]
    rfl

lemma items_last (hv : value fuel depth cs = .ok (v, r)) {rest : List Char}
    (hr : skipSpace r = ']' :: rest) : items (fuel + 1) depth cs = .ok ([v], rest) := by
  simp only [items, hv, hr, bind, Except.bind, pure, Except.pure]

lemma items_more (hv : value fuel depth cs = .ok (v, r)) {more rest : List Char}
    (hr : skipSpace r = ',' :: more) (hi : items fuel depth (skipSpace more) = .ok (vs, rest)) :
    items (fuel + 1) depth cs = .ok (v :: vs, rest) := by
  simp only [items, hv, hr, hi, bind, Except.bind, pure, Except.pure]

lemma skipSpace_colon : skipSpace (':' :: cs) = ':' :: cs := rfl

lemma members_last {body afterKey : List Char} (hk : stringBody body = .ok (key, ':' :: afterKey))
    (hv : value fuel depth (skipSpace afterKey) = .ok (v, r)) {rest : List Char}
    (hr : skipSpace r = '\x7d' :: rest) :
    members (fuel + 1) depth ('"' :: body) = .ok ([(key, v)], rest) := by
  simp only [members, hk, skipSpace_colon, hv, hr, bind, Except.bind, pure, Except.pure]

lemma members_more {body afterKey : List Char} (hk : stringBody body = .ok (key, ':' :: afterKey))
    (hv : value fuel depth (skipSpace afterKey) = .ok (v, r)) {more rest : List Char}
    (hr : skipSpace r = ',' :: more) (hi : members fuel depth (skipSpace more) = .ok (ms, rest)) :
    members (fuel + 1) depth ('"' :: body) = .ok ((key, v) :: ms, rest) := by
  simp only [members, hk, skipSpace_colon, hv, hr, hi, bind, Except.bind, pure, Except.pure]

end Brackets

/-! ### Documents -/

/-- What so much fuel is enough for: a value, and the items or members that come before a closing
bracket. -/
structure ReadsBack (l : Layout) (fuel : ℕ) : Prop where
  value : ∀ {v : Json} {depth : ℕ} {cs : List Char} (k : ℕ), Legible depth v → EndsNumber cs →
    2 * (v.render l k).toList.length ≤ fuel →
      Json.value fuel depth ((v.render l k).toList ++ cs) = .ok (v, cs)
  items : ∀ {v : Json} {vs : List Json} {depth : ℕ} {spaces : List Char} (k : ℕ) (cs : List Char),
    (∀ w ∈ v :: vs, Legible depth w) → (∀ c ∈ spaces, isSpace c = true) →
      2 * ((v.render l k).toList.length + (renderItems l k vs).toList.length) + 1 ≤ fuel →
        Json.items fuel depth ((v.render l k).toList ++ ((renderItems l k vs).toList ++
          (spaces ++ ']' :: cs))) = .ok (v :: vs, cs)
  members : ∀ {m : String × Json} {ms : List (String × Json)} {depth : ℕ} {spaces : List Char}
    (k : ℕ) (cs : List Char),
    (∀ e ∈ m :: ms, Legible depth e.2) → (∀ c ∈ spaces, isSpace c = true) →
      2 * ((m.2.render l k).toList.length +
        (renderMembers l k (ms.map fun e => (.chars e.1, e.2))).toList.length) + 1 ≤ fuel →
        Json.members fuel depth ((stringText (.chars m.1)).toList ++ (": ".toList ++
          ((m.2.render l k).toList ++
            ((renderMembers l k (ms.map fun e => (.chars e.1, e.2))).toList ++
              (spaces ++ '\x7d' :: cs))))) =
            .ok ((m :: ms).map fun e => (.chars e.1, e.2), cs)

lemma readsBack_zero (l : Layout) : ReadsBack l 0 where
  value k hv _ hlen := by
    have := length_render_pos hv l k
    omega
  items k cs _ _ hlen := by omega
  members k cs _ _ hlen := by omega

lemma value_succ (hl : l.Spaced) (ih : ReadsBack l fuel) {v : Json} (k : ℕ) (hv : Legible depth v)
    (hcs : EndsNumber cs) (hlen : 2 * (v.render l k).toList.length ≤ fuel + 1) :
    value (fuel + 1) depth ((v.render l k).toList ++ cs) = .ok (v, cs) := by
  cases hv with
  | null =>
    rw [render]
    rfl
  | bool b =>
    rw [render]
    cases b <;> rfl
  | int hn =>
    rw [render]
    exact value_toString hn hcs
  | string s =>
    rw [Json.string, render, toList_stringText, List.cons_append, List.append_assoc,
      List.singleton_append]
    simp only [value, stringBody_text, bind, Except.bind, pure, Except.pure]
  | @arr depth vs h =>
    cases vs with
    | nil =>
      rw [render]
      rfl
    | cons v vs =>
      simp only [render, String.toList_append, List.append_assoc, List.length_append] at hlen ⊢
      have hstart := ((h v List.mem_cons_self).starts l (k + 1)).append
        ((renderItems l (k + 1) vs).toList ++ ((l.before k).toList ++ ("]".toList ++ cs)))
      refine value_arr hstart (skipSpace_starts (hl.before _) hstart) ?_
      refine ih.items (k + 1) cs h (hl.before k) ?_
      simp at hlen
      omega
  | @object depth ms hkeys h =>
    cases ms with
    | nil =>
      rw [Json.object, List.map_nil, render]
      rfl
    | cons m ms =>
      simp only [Json.object, List.map_cons, render, String.toList_append, List.append_assoc,
        List.length_append] at hlen ⊢
      have hstart : Starts ((stringText (.chars m.1)).toList ++ (": ".toList ++
          ((m.2.render l (k + 1)).toList ++
            ((renderMembers l (k + 1) (ms.map fun e => (.chars e.1, e.2))).toList ++
              ((l.before k).toList ++ ("\x7d".toList ++ cs)))))) := by
        rw [toList_stringText]
        exact starts_cons rfl
      have hmembers := ih.members (k + 1) cs h (hl.before k) (by simp at hlen; omega)
      exact (value_obj hstart (skipSpace_starts (hl.before _) hstart) hmembers).trans
        (congrArg (fun v => Except.ok (v, cs)) (ofMembers_eq_object hkeys))

lemma items_succ (hl : l.Spaced) (ih : ReadsBack l fuel) {v : Json} {vs : List Json} (k : ℕ)
    (cs : List Char) (h : ∀ w ∈ v :: vs, Legible depth w) (hs : ∀ c ∈ spaces, isSpace c = true)
    (hlen :
      2 * ((v.render l k).toList.length + (renderItems l k vs).toList.length) + 1 ≤ fuel + 1) :
    items (fuel + 1) depth ((v.render l k).toList ++ ((renderItems l k vs).toList ++
      (spaces ++ ']' :: cs))) = .ok (v :: vs, cs) := by
  obtain ⟨hv, hvs⟩ := List.forall_mem_cons.1 h
  cases vs with
  | nil =>
    rw [renderItems]
    exact items_last (ih.value k hv (endsNumber_append hs rfl) (by omega))
      (skipSpace_append hs rfl)
  | cons w ws =>
    obtain ⟨gap, hgap, hspace⟩ := hl.separator
    simp only [renderItems, String.toList_append, hgap, List.append_assoc, List.cons_append,
      List.length_append, List.length_cons] at hlen ⊢
    have hpos := length_render_pos (hvs w List.mem_cons_self) l k
    have hstart := ((hvs w List.mem_cons_self).starts l k).append
      ((renderItems l k ws).toList ++ (spaces ++ ']' :: cs))
    refine items_more (ih.value k hv (endsNumber_of_follows rfl) (by omega)) rfl ?_
    rw [← List.append_assoc,
      skipSpace_starts (List.forall_mem_append.2 ⟨hspace, hl.before k⟩) hstart]
    exact ih.items k cs hvs hs (by omega)

lemma ReadsBack.afterColon (ih : ReadsBack l fuel) {v : Json} (k : ℕ) (hv : Legible depth v)
    (hcs : EndsNumber cs) (hlen : 2 * (v.render l k).toList.length ≤ fuel) :
    Json.value fuel depth (skipSpace (' ' :: ((v.render l k).toList ++ cs))) = .ok (v, cs) := by
  have hblank : ∀ c ∈ [' '], isSpace c = true := by simp [isSpace]
  rw [← List.singleton_append, skipSpace_starts hblank ((hv.starts l k).append cs)]
  exact ih.value k hv hcs hlen

lemma members_succ (hl : l.Spaced) (ih : ReadsBack l fuel) {m : String × Json}
    {ms : List (String × Json)} (k : ℕ) (cs : List Char) (h : ∀ e ∈ m :: ms, Legible depth e.2)
    (hs : ∀ c ∈ spaces, isSpace c = true)
    (hlen : 2 * ((m.2.render l k).toList.length +
      (renderMembers l k (ms.map fun e => (.chars e.1, e.2))).toList.length) + 1 ≤ fuel + 1) :
    members (fuel + 1) depth ((stringText (.chars m.1)).toList ++ (": ".toList ++
      ((m.2.render l k).toList ++ ((renderMembers l k (ms.map fun e => (.chars e.1, e.2))).toList ++
        (spaces ++ '\x7d' :: cs))))) = .ok ((m :: ms).map fun e => (.chars e.1, e.2), cs) := by
  obtain ⟨hm, hms⟩ := List.forall_mem_cons.1 h
  rw [toList_stringText, List.cons_append, List.append_assoc, List.singleton_append]
  cases ms with
  | nil =>
    exact members_last (stringBody_text m.1 _)
      (ih.afterColon k hm (endsNumber_append hs rfl) (by omega)) (skipSpace_append hs rfl)
  | cons e ms =>
    obtain ⟨gap, hgap, hspace⟩ := hl.separator
    simp only [List.map_cons, renderMembers, String.toList_append, hgap, List.append_assoc,
      List.cons_append, List.length_append, List.length_cons] at hlen ⊢
    have hpos := length_render_pos (hms e List.mem_cons_self) l k
    have hstart : Starts ((stringText (.chars e.1)).toList ++ (": ".toList ++
        ((e.2.render l k).toList ++
          ((renderMembers l k (ms.map fun e => (.chars e.1, e.2))).toList ++
          (spaces ++ '\x7d' :: cs))))) := by
      rw [toList_stringText]
      exact starts_cons rfl
    refine members_more (stringBody_text m.1 _)
      (ih.afterColon k hm (endsNumber_of_follows rfl) (by omega)) rfl ?_
    rw [← List.append_assoc,
      skipSpace_starts (List.forall_mem_append.2 ⟨hspace, hl.before k⟩) hstart]
    exact ih.members k cs hms hs (by omega)

lemma readsBack (hl : l.Spaced) (fuel : ℕ) : ReadsBack l fuel := by
  induction fuel with
  | zero => exact readsBack_zero l
  | succ fuel ih => exact ⟨value_succ hl ih, items_succ hl ih, members_succ hl ih⟩

/-- **A document is read back from its text.** -/
lemma parse_render (hl : l.Spaced) {depth : ℕ} {v : Json} (hv : Legible depth v) :
    parse depth (v.render l 0) = .ok v := by
  have hskip := skipSpace_starts (List.forall_mem_nil _) (hv.starts l 0)
  have hvalue := (readsBack hl (2 * (v.render l 0).toList.length + 2)).value 0 hv endsNumber_nil
    (by omega)
  rw [List.append_nil] at hvalue
  rw [List.nil_append] at hskip
  simp only [parse, hskip, hvalue, bind, Except.bind, pure, Except.pure]
  rfl

end SoundAtlas.Json
