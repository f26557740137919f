import SessionGateway.Proofs.Cache.Comparison

/-!
# Pruning over any store

Stale fields are deleted one after another while the clock goes on. A field that is still shown
counts; once the hash is gone nothing is left to delete. So what goes, and how much counts, does not
depend on the order in which the store listed the fields.
-/

namespace SessionGateway.SessionCache

open Cache (Operation Agree Comparison)
open Cache.Comparison (onBackend_bind)
open Store (Command Backend Picture)

/-- How many of some instants, one after another, lie before a time. -/
def countBefore (clock : Nat → Nat) (d : Nat) : Nat → Nat → Nat
  | _, 0 => 0
  | n, k + 1 => (if clock n < d then 1 else 0) + countBefore clock d (n + 1) k

/-- The stale ones among fields. -/
def staleAmong (now : Int64) (l : List (String × String)) : List (String × String) :=
  l.filter fun e => isStale now e.2

/-- Fields without some. -/
def dropped (l : List (String × String)) (G : String → Option String) : String → Option String :=
  fun field => if field ∈ l.map Prod.fst then none else G field

section

variable {σ : Type} {B : Backend σ} {admits : Nat → Command → Prop} {fits : Nat → σ → Prop}
  {origin : Nat} {clock : Nat → Nat} {key : String} {now : Int64} {d : Nat}

/-- Deleting a field that is shown until the hash goes. -/
theorem shown_of_hashDeleteIf {V : Store.Outlook} {t t' : Nat} {G : String → Option String}
    {field text : String}
    (hG : ∀ t', t ≤ t' → (V t').fields key = if t' < d then G else Picture.blank)
    (hfield : G field = some text) (ht : t ≤ t') :
    (Command.hashDeleteIf key field text).after t V t' =
      (V t').setFields key (if t' < d then Function.update G field none else Picture.blank) := by
  have hnow := hG t (Nat.le_refl t)
  have hthen := hG t' ht
  by_cases hlive : t < d
  · rw [if_pos hlive] at hnow
    have hafter : (Command.hashDeleteIf key field text).after t V t' =
        (V t').deleteField key field := if_pos (by rw [hnow, hfield])
    rw [hafter, Picture.deleteField, hthen]
    split
    · rfl
    · congr 1
      exact Function.update_eq_self field Picture.blank
  · rw [if_neg hlive] at hnow
    have hafter : (Command.hashDeleteIf key field text).after t V t' = V t' :=
      if_neg (by rw [hnow]; exact (Option.some_ne_none text).symm)
    have hgone : ¬ t' < d := by omega
    rw [hafter, if_neg hgone]
    rw [if_neg hgone] at hthen
    rw [← hthen]
    exact (Picture.setFields_eq_self _ key).symm

/-- A field is still there to be deleted just if its hash is. -/
theorem run_hashDeleteIf (hB : B.Sound admits fits) (hclock : Monotone clock)
    (hadmits : ∀ n field text, admits (clock n) (.hashDeleteIf key field text)) {n : Nat} {s : σ}
    (hs : fits (clock n) s) {G : String → Option String}
    (hG : ∀ t', clock n ≤ t' →
      (B.outlook s t').fields key = if t' < d then G else Picture.blank)
    {field text : String} (hfield : G field = some text) :
    ∃ s', B.answer (clock n) (.hashDeleteIf key field text) s = (.ok (decide (clock n < d)), s') ∧
      fits (clock (n + 1)) s' ∧
      ∀ t', clock (n + 1) ≤ t' → B.outlook s' t' = (B.outlook s t').setFields key
        (if t' < d then Function.update G field none else Picture.blank) := by
  have hstep := hclock (Nat.le_succ n)
  have hreplied : (B.answer (clock n) (.hashDeleteIf key field text) s).1 =
      .ok (decide ((B.outlook s (clock n)).fields key field = some text)) :=
    hB.replied hs (hadmits n field text)
  have hthere : (B.outlook s (clock n)).fields key field = some text ↔ clock n < d := by
    rw [hG (clock n) (Nat.le_refl _)]
    by_cases hlive : clock n < d
    · rw [if_pos hlive, hfield]
      exact iff_of_true rfl hlive
    · rw [if_neg hlive]
      exact iff_of_false (fun e => nomatch e) hlive
  refine ⟨(B.answer (clock n) (.hashDeleteIf key field text) s).2, ?_, ?_, ?_⟩
  · rw [← decide_eq_decide.mpr hthere, ← hreplied]
  · exact hB.later (hB.kept hs (hadmits n field text)) hstep
  · intro t' ht'
    have hlater := Nat.le_trans hstep ht'
    exact (hB.shown hs (hadmits n field text) t' hlater).trans
      (shown_of_hashDeleteIf hG hfield hlater)

theorem dropped_cons {field text : String} (l : List (String × String))
    (G : String → Option String) :
    dropped ((field, text) :: l) G = dropped l (Function.update G field none) := by
  funext field'
  by_cases hfield : field' = field
  · subst hfield
    simp only [dropped, List.map_cons, List.mem_cons_self, if_true, Function.update_self, ite_self]
  · simp only [dropped, List.map_cons, List.mem_cons, hfield, false_or,
      Function.update_of_ne hfield]

theorem onBackend_pruneAmong_stale {field text : String} {rest : List (String × String)} {n : Nat}
    {s s' : σ} {gone : Bool} {k : Nat} {x : Nat × σ} (hstale : isStale now text = true)
    (hgone : B.answer (clock n) (.hashDeleteIf key field text) s = (.ok gone, s'))
    (hrest : (pruneAmong key now rest).onBackend B origin clock (n + 1, s') = (.ok k, x)) :
    (pruneAmong key now ((field, text) :: rest)).onBackend B origin clock (n, s) =
      (.ok ((if gone then 1 else 0) + k), x) := by
  have hcommand : (Cache.command (.hashDeleteIf key field text)).onBackend B origin clock (n, s) =
      (.ok gone, n + 1, s') := by
    show ((B.answer (clock n) (.hashDeleteIf key field text) s).1, n + 1,
      (B.answer (clock n) (.hashDeleteIf key field text) s).2) = _
    rw [hgone]
  rw [pruneAmong, if_pos hstale, onBackend_bind, hcommand]
  simp only [onBackend_bind, hrest]
  rfl

theorem onBackend_pruneAmong_fresh {field text : String} {rest : List (String × String)}
    {x x' : Nat × σ} {k : Nat} (hfresh : ¬ isStale now text = true)
    (hrest : (pruneAmong key now rest).onBackend B origin clock x = (.ok k, x')) :
    (pruneAmong key now ((field, text) :: rest)).onBackend B origin clock x = (.ok k, x') := by
  have hpure : (pure false : Operation Bool).onBackend B origin clock x = (.ok false, x) := rfl
  rw [pruneAmong, if_neg hfresh, onBackend_bind, hpure]
  simp only [onBackend_bind, hrest, Bool.false_eq_true, if_false, Nat.zero_add]
  rfl

/-- What a backend makes of pruning some fields that it showed. -/
theorem run_pruneAmong (origin : Nat) (hB : B.Sound admits fits) (hclock : Monotone clock)
    (hadmits : ∀ n field text, admits (clock n) (.hashDeleteIf key field text))
    {l : List (String × String)} (hl : (l.map Prod.fst).Nodup) {n : Nat} {s : σ}
    (hs : fits (clock n) s) {G : String → Option String}
    (hG : ∀ t', clock n ≤ t' →
      (B.outlook s t').fields key = if t' < d then G else Picture.blank)
    (hlG : ∀ e ∈ l, G e.1 = some e.2) :
    ∃ s', (pruneAmong key now l).onBackend B origin clock (n, s) =
        (.ok (countBefore clock d n (staleAmong now l).length),
          n + (staleAmong now l).length, s') ∧
      fits (clock (n + (staleAmong now l).length)) s' ∧
      ∀ t', clock (n + (staleAmong now l).length) ≤ t' → B.outlook s' t' =
        (B.outlook s t').setFields key
          (if t' < d then dropped (staleAmong now l) G else Picture.blank) := by
  -- field by field: what is left of the hash goes with it at the same time
  induction l generalizing n s G with
  | nil =>
    refine ⟨s, rfl, hs, ?_⟩
    intro t' ht'
    have hsame : (B.outlook s t').setFields key ((B.outlook s t').fields key) = B.outlook s t' :=
      Picture.setFields_eq_self _ key
    rw [hG t' ht'] at hsame
    exact hsame.symm
  | cons e rest ih =>
    obtain ⟨field, text⟩ := e
    rw [List.map_cons, List.nodup_cons] at hl
    have hrestG : ∀ e ∈ rest, G e.1 = some e.2 := fun e he => hlG e (List.mem_cons_of_mem _ he)
    by_cases hstale : isStale now text = true
    · obtain ⟨s₁, hgone, hfits₁, hshown⟩ := run_hashDeleteIf hB hclock hadmits hs hG
        (hlG (field, text) List.mem_cons_self)
      have hrestG' : ∀ e ∈ rest, Function.update G field none e.1 = some e.2 := by
        intro e he
        have hne : e.1 ≠ field := by
          rintro rfl
          exact hl.1 (List.mem_map.mpr ⟨e, he, rfl⟩)
        rw [Function.update_of_ne hne]
        exact hrestG e he
      obtain ⟨s', hrun, hfits, hlater⟩ := ih hl.2 hfits₁
        (fun t' ht' => by rw [hshown t' ht', Picture.fields_setFields]) hrestG'
      have hmore : staleAmong now ((field, text) :: rest) = (field, text) :: staleAmong now rest :=
        List.filter_cons_of_pos hstale
      have hlength : n + (staleAmong now ((field, text) :: rest)).length =
          n + 1 + (staleAmong now rest).length := by
        rw [hmore, List.length_cons]
        omega
      rw [hlength]
      refine ⟨s', ?_, hfits, ?_⟩
      · rw [onBackend_pruneAmong_stale hstale hgone hrun, hmore, List.length_cons, countBefore]
        simp only [decide_eq_true_eq]
      · intro t' ht'
        have hfirst : clock (n + 1) ≤ t' := Nat.le_trans (hclock (Nat.le_add_right _ _)) ht'
        rw [hlater t' ht', hshown t' hfirst, Picture.setFields_setFields, hmore, dropped_cons]
    · obtain ⟨s', hrun, hfits, hlater⟩ := ih hl.2 hs hG hrestG
      have hsame : staleAmong now ((field, text) :: rest) = staleAmong now rest :=
        List.filter_cons_of_neg hstale
      rw [hsame]
      exact ⟨s', onBackend_pruneAmong_fresh hstale hrun, hfits, hlater⟩

end

/-! ### Over two stores -/

section

variable {σ τ : Type} {P : Comparison σ τ} {key : String} {now : Int64}

theorem dropped_of_perm {l l' : List (String × String)} (h : l.Perm l')
    (G : String → Option String) : dropped l G = dropped l' G := by
  funext field
  simp only [dropped, (h.map Prod.fst).mem_iff]

/-- The order in which the fields were listed makes no difference. -/
theorem twin_pruneAmong
    (hdelete : ∀ n field text, P.admits (P.clock n) (.hashDeleteIf key field text))
    {n d : Nat} {s : σ} {s' : τ} (hxy : P.Alike (n, s) (n, s')) {G : String → Option String}
    (hG : ∀ t', P.clock n ≤ t' →
      (P.first.outlook s t').fields key = if t' < d then G else Picture.blank)
    {l l' : List (String × String)} (hperm : l.Perm l') (hl : Command.IsListing G l) :
    Agree Eq ((pruneAmong key now l).onBackend P.first P.origin P.clock (n, s)).1
        ((pruneAmong key now l').onBackend P.second P.origin P.clock (n, s')).1 ∧
      P.Alike ((pruneAmong key now l).onBackend P.first P.origin P.clock (n, s)).2
        ((pruneAmong key now l').onBackend P.second P.origin P.clock (n, s')).2 := by
  have hG' : ∀ t', P.clock n ≤ t' →
      (P.second.outlook s' t').fields key = if t' < d then G else Picture.blank := by
    intro t' ht'
    rw [← hxy.outlook t' ht']
    exact hG t' ht'
  have hstale : (staleAmong now l).Perm (staleAmong now l') := hperm.filter _
  have hl' : (l'.map Prod.fst).Nodup := (hperm.map Prod.fst).nodup_iff.mp hl.1
  obtain ⟨s₁, hrun₁, hfits₁, hshown₁⟩ := run_pruneAmong P.origin P.sound₁ P.onward hdelete hl.1
    hxy.fits₁ hG fun e he => (hl.2 e.1 e.2).mp he
  obtain ⟨s₂, hrun₂, hfits₂, hshown₂⟩ := run_pruneAmong P.origin P.sound₂ P.onward hdelete hl'
    hxy.fits₂ hG' fun e he => (hl.2 e.1 e.2).mp (hperm.mem_iff.mpr he)
  rw [← hstale.length_eq] at hrun₂ hfits₂ hshown₂
  rw [← dropped_of_perm hstale G] at hshown₂
  rw [hrun₁, hrun₂]
  refine ⟨.ok rfl, rfl, hfits₁, hfits₂, ?_⟩
  intro t' ht'
  have hstart : P.clock n ≤ t' := Nat.le_trans (P.onward (Nat.le_add_right _ _)) ht'
  rw [hshown₁ t' ht', hshown₂ t' ht', hxy.outlook t' hstart]

/-- Listing a hash and pruning what was listed: as many go over either store. -/
theorem twins_sweep (hlist : ∀ n, P.admits (P.clock n) (.hashGetAll key))
    (hdelete : ∀ n field text, P.admits (P.clock n) (.hashDeleteIf key field text)) :
    P.Twins Eq (Cache.command (.hashGetAll key) >>= pruneAmong key now)
      (Cache.command (.hashGetAll key) >>= pruneAmong key now) := by
  intro x y hxy
  obtain ⟨n, s⟩ := x
  obtain ⟨n', s'⟩ := y
  obtain rfl : n = n' := hxy.together
  have hshow : P.first.outlook s (P.clock n) = P.second.outlook s' (P.clock n) :=
    hxy.outlook (P.clock n) (Nat.le_refl _)
  have hafter : P.Alike (n + 1, (P.first.answer (P.clock n) (.hashGetAll key) s).2)
      (n + 1, (P.second.answer (P.clock n) (.hashGetAll key) s').2) :=
    (Comparison.twins_command hlist _ _ hxy).2
  -- both list what is shown now, which stays until the hash goes
  obtain ⟨d, hd⟩ := P.lapses s (P.clock n) key
  have hG : ∀ t', P.clock (n + 1) ≤ t' →
      (P.first.outlook (P.first.answer (P.clock n) (.hashGetAll key) s).2 t').fields key =
        if t' < d then (P.first.outlook s (P.clock n)).fields key else Picture.blank := by
    intro t' ht'
    have hlater := Nat.le_trans (P.onward (Nat.le_succ n)) ht'
    rw [P.sound₁.shown hxy.fits₁ (hlist n) t' hlater]
    exact hd t' hlater
  obtain ⟨l, hl, hlisting⟩ := P.sound₁.replied hxy.fits₁ (hlist n)
  obtain ⟨l', hl', hlisting'⟩ := P.sound₂.replied hxy.fits₂ (hlist n)
  rw [← hshow] at hlisting'
  have hrun : (Cache.command (.hashGetAll key)).onBackend P.first P.origin P.clock (n, s) =
      (.ok l, n + 1, (P.first.answer (P.clock n) (.hashGetAll key) s).2) :=
    Prod.ext hl rfl
  have hrun' : (Cache.command (.hashGetAll key)).onBackend P.second P.origin P.clock (n, s') =
      (.ok l', n + 1, (P.second.answer (P.clock n) (.hashGetAll key) s').2) :=
    Prod.ext hl' rfl
  rw [onBackend_bind, onBackend_bind, hrun, hrun']
  exact twin_pruneAmong hdelete hafter hG (Comparison.perm_of_listings hlisting hlisting') hlisting

end

end SessionGateway.SessionCache
