import SessionGateway.Proofs.Dispatch.Turns

/-!
# The order of registration

What a registry answers is settled by the calls that were made to it before. Under each name stands
the processor that was registered last, unless the name was unregistered since, and names stand in
the order in which they came to stand. Nothing but the search for a name keeps names apart: a plain
list of processors answers the same.
-/

namespace SessionGateway.Registry

/-- What a registry is called for. -/
inductive Call where
  | register (p : Processor)
  | unregister (name : String)
  | snapshot
  | names

inductive Reply where
  | done
  | removed (wasThere : Bool)
  | processors (ps : List Processor)
  | names (ns : List String)

/-- The name whose place in the registry may change. -/
def Call.name? : Call → Option String
  | .register p => some p.name
  | .unregister name => some name
  | .snapshot | .names => none

def perform (r : Registry) : Call → Reply × Registry
  | .register p => (.done, r.register p)
  | .unregister name => (.removed (r.unregister name).1, (r.unregister name).2)
  | .snapshot => (.processors r.snapshot, r)
  | .names => (.names r.names, r)

section

variable {σ : Type}

/-- The replies to calls that are made one after another. -/
def replies (perform : σ → Call → Reply × σ) (s : σ) : List Call → List Reply
  | [] => []
  | c :: cs => (perform s c).1 :: replies perform (perform s c).2 cs

/-- What calls leave behind. -/
def after (perform : σ → Call → Reply × σ) (s : σ) (cs : List Call) : σ :=
  cs.foldl (fun s c => (perform s c).2) s

theorem replies_append (perform : σ → Call → Reply × σ) (s : σ) (cs ds : List Call) :
    replies perform s (cs ++ ds) =
      replies perform s cs ++ replies perform (after perform s cs) ds := by
  induction cs generalizing s with
  | nil => rfl
  | cons c cs ih => exact congrArg _ (ih _)

theorem length_replies (perform : σ → Call → Reply × σ) (s : σ) (cs : List Call) :
    (replies perform s cs).length = cs.length := by
  induction cs generalizing s with
  | nil => rfl
  | cons c cs ih => exact congrArg Nat.succ (ih _)

end

theorem register_ne {p : Processor} {name : String} : Call.register p ≠ .unregister name := by
  rintro ⟨⟩

/-! ### What calls amount to -/

/-- A processor stands under its name: registering it was the last call about the name. -/
def Stands (cs : List Call) (p : Processor) : Prop :=
  ∃ past rest, cs = past ++ .register p :: rest ∧ ∀ c ∈ rest, c.name? ≠ some p.name

/-- A name came to stand while another stood, and neither was unregistered since. -/
def Earlier (cs : List Call) (a b : String) : Prop :=
  ∃ past p rest, cs = past ++ .register p :: rest ∧ p.name = b ∧
    (∃ q, q.name = a ∧ Stands past q) ∧ (∀ q, q.name = b → ¬ Stands past q) ∧
    ∀ c ∈ rest, c ≠ .unregister a ∧ c ≠ .unregister b

section

variable {cs : List Call} {c : Call} {p q : Processor} {a b : String}

theorem stands_concat_iff :
    Stands (cs ++ [c]) p ↔ c = .register p ∨ c.name? ≠ some p.name ∧ Stands cs p := by
  constructor
  · rintro ⟨past, rest, heq, hrest⟩
    obtain rfl | ⟨rest', c', rfl⟩ := List.eq_nil_or_concat rest
    · obtain ⟨-, hc⟩ := List.append_inj' heq rfl
      exact .inl (List.singleton_inj.mp hc)
    · rw [List.concat_eq_append] at heq hrest
      rw [← List.cons_append, ← List.append_assoc] at heq
      obtain ⟨hcs, hc⟩ := List.append_inj' heq rfl
      obtain rfl := List.singleton_inj.mp hc
      refine .inr ⟨hrest c (List.mem_append_right _ (List.mem_singleton_self c)), ?_⟩
      exact ⟨past, rest', hcs, fun d hd => hrest d (List.mem_append_left _ hd)⟩
  · rintro (rfl | ⟨hc, past, rest, rfl, hrest⟩)
    · exact ⟨cs, [], rfl, List.forall_mem_nil _⟩
    · refine ⟨past, rest ++ [c], by rw [List.append_assoc, List.cons_append], ?_⟩
      intro d hd
      obtain hd | hd := List.mem_append.mp hd
      · exact hrest d hd
      · rwa [List.mem_singleton.mp hd]

theorem Earlier.concat (h : Earlier cs a b) (ha : c ≠ .unregister a) (hb : c ≠ .unregister b) :
    Earlier (cs ++ [c]) a b := by
  obtain ⟨past, p, rest, rfl, hp, hstood, hnew, hrest⟩ := h
  refine ⟨past, p, rest ++ [c], by rw [List.append_assoc, List.cons_append], hp, hstood, hnew, ?_⟩
  intro d hd
  obtain hd | hd := List.mem_append.mp hd
  · exact hrest d hd
  · rw [List.mem_singleton.mp hd]
    exact ⟨ha, hb⟩

theorem Earlier.ne (h : Earlier cs a b) : a ≠ b := by
  obtain ⟨past, p, rest, -, -, ⟨q, hq, hstood⟩, hnew, -⟩ := h
  rintro rfl
  exact hnew q hq hstood

end

/-! ### A plain list of processors -/

/-- Writes a processor over the first of its name, or adds it last. -/
def put (p : Processor) : List Processor → List Processor
  | [] => [p]
  | q :: rest => if q.name = p.name then p :: rest else q :: put p rest

/-- Calls on a list of processors. Something was removed if the list got shorter. -/
def performPlain (ps : List Processor) : Call → Reply × List Processor
  | .register p => (.done, put p ps)
  | .unregister name =>
    let rest := ps.filter (·.name ≠ name)
    (.removed (rest.length != ps.length), rest)
  | .snapshot => (.processors ps, ps)
  | .names => (.names (ps.map (·.name)), ps)

/-- A list of processors is as some calls have it. -/
structure Follows (cs : List Call) (ps : List Processor) : Prop where
  stands : ∀ p, p ∈ ps ↔ Stands cs p
  order : ps.Pairwise fun p q => Earlier cs p.name q.name

section

variable {cs : List Call} {ps : List Processor} {p : Processor} {name : String}

theorem Follows.nodup (h : Follows cs ps) : (ps.map (·.name)).Nodup :=
  List.pairwise_map.mpr (h.order.imp Earlier.ne)

theorem put_of_mem (hps : (ps.map (·.name)).Nodup) (hp : p.name ∈ ps.map (·.name)) :
    put p ps = ps.map fun q => if q.name = p.name then p else q := by
  induction ps with
  | nil => cases hp
  | cons q rest ih =>
    rw [List.map_cons, List.nodup_cons] at hps
    rw [put, List.map_cons]
    by_cases hq : q.name = p.name
    · have hrest : rest.map (fun q => if q.name = p.name then p else q) = rest := by
        refine (List.map_congr_left fun q' hq' => if_neg ?_).trans (List.map_id rest)
        intro hq''
        exact hps.1 (List.mem_map.mpr ⟨q', hq', hq''.trans hq.symm⟩)
      rw [if_pos hq, if_pos hq, hrest]
    · rw [if_neg hq, if_neg hq]
      obtain hp | hp := List.mem_cons.mp hp
      · exact absurd hp.symm hq
      · rw [ih hps.2 hp]

theorem put_of_not_mem (hp : p.name ∉ ps.map (·.name)) : put p ps = ps ++ [p] := by
  induction ps with
  | nil => rfl
  | cons q rest ih =>
    rw [List.map_cons, List.mem_cons, not_or] at hp
    rw [put, if_neg fun hq => hp.1 hq.symm, ih hp.2, List.cons_append]

theorem name_replaced (p q : Processor) :
    (if q.name = p.name then p else q).name = q.name := by
  split
  · next h => exact h.symm
  · rfl

/-! ### One call -/

theorem Follows.register_mem (h : Follows cs ps) (hp : p.name ∈ ps.map (·.name)) :
    Follows (cs ++ [.register p]) (put p ps) := by
  rw [put_of_mem h.nodup hp]
  constructor
  · intro q
    rw [stands_concat_iff, List.mem_map, ← h.stands]
    constructor
    · rintro ⟨q', hq', rfl⟩
      by_cases hname : q'.name = p.name
      · rw [if_pos hname]
        exact .inl rfl
      · rw [if_neg hname]
        exact .inr ⟨fun hsome => hname (Option.some.inj hsome).symm, hq'⟩
    · rintro (heq | ⟨hne, hq⟩)
      · cases heq
        obtain ⟨q', hq', hname⟩ := List.mem_map.mp hp
        exact ⟨q', hq', if_pos hname⟩
      · exact ⟨q, hq, if_neg fun hname => hne (congrArg some hname.symm)⟩
  · rw [List.pairwise_map]
    refine h.order.imp fun {q q'} hearlier => ?_
    rw [name_replaced, name_replaced]
    exact hearlier.concat register_ne register_ne

theorem Follows.register_new (h : Follows cs ps) (hp : p.name ∉ ps.map (·.name)) :
    Follows (cs ++ [.register p]) (put p ps) := by
  have hnew : ∀ q ∈ ps, q.name ≠ p.name := fun q hq hname => hp (List.mem_map.mpr ⟨q, hq, hname⟩)
  rw [put_of_not_mem hp]
  constructor
  · intro q
    rw [stands_concat_iff, List.mem_append, List.mem_singleton, ← h.stands]
    constructor
    · rintro (hq | rfl)
      · exact .inr ⟨fun hsome => hnew q hq (Option.some.inj hsome).symm, hq⟩
      · exact .inl rfl
    · rintro (heq | ⟨-, hq⟩)
      · cases heq
        exact .inr rfl
      · exact .inl hq
  · refine List.pairwise_append.mpr ⟨?_, List.pairwise_singleton _ _, ?_⟩
    · exact h.order.imp fun hearlier => hearlier.concat register_ne register_ne
    · intro q hq p' hp'
      obtain rfl := List.mem_singleton.mp hp'
      refine ⟨cs, p', [], rfl, rfl, ⟨q, rfl, (h.stands q).mp hq⟩, ?_, List.forall_mem_nil _⟩
      exact fun q' hname hstands => hnew q' ((h.stands q').mpr hstands) hname

theorem Follows.unregister (h : Follows cs ps) :
    Follows (cs ++ [.unregister name]) (ps.filter (·.name ≠ name)) := by
  constructor
  · intro q
    rw [stands_concat_iff, List.mem_filter, decide_eq_true_eq, ← h.stands]
    constructor
    · rintro ⟨hq, hne⟩
      exact .inr ⟨fun hsome => hne (Option.some.inj hsome).symm, hq⟩
    · rintro (heq | ⟨hne, hq⟩)
      · cases heq
      · exact ⟨hq, fun hname => hne (congrArg some hname.symm)⟩
  · refine List.pairwise_filter.mpr (h.order.imp fun {q q'} hearlier hq hq' => ?_)
    have hq := of_decide_eq_true hq
    have hq' := of_decide_eq_true hq'
    exact hearlier.concat (fun heq => hq (Call.unregister.inj heq).symm)
      fun heq => hq' (Call.unregister.inj heq).symm

/-- A call that changes nothing. -/
theorem Follows.query (h : Follows cs ps) {c : Call} (hc : c.name? = none) :
    Follows (cs ++ [c]) ps := by
  have hname : ∀ name, c.name? ≠ some name := fun name hsome => by rw [hc] at hsome; cases hsome
  constructor
  · intro q
    rw [stands_concat_iff, h.stands]
    constructor
    · exact fun hq => .inr ⟨hname q.name, hq⟩
    · rintro (rfl | ⟨-, hq⟩)
      · cases hc
      · exact hq
  · refine h.order.imp fun hearlier => hearlier.concat ?_ ?_
    · rintro rfl
      cases hc
    · rintro rfl
      cases hc

theorem Follows.step (h : Follows cs ps) (c : Call) :
    Follows (cs ++ [c]) (performPlain ps c).2 := by
  cases c with
  | register p =>
    by_cases hp : p.name ∈ ps.map (·.name)
    · exact h.register_mem hp
    · exact h.register_new hp
  | unregister name => exact h.unregister
  | snapshot => exact h.query rfl
  | names => exact h.query rfl

/-! ### All calls -/

theorem Follows.run (h : Follows cs ps) (ds : List Call) :
    Follows (cs ++ ds) (after performPlain ps ds) := by
  induction ds generalizing cs ps with
  | nil => rwa [List.append_nil]
  | cons d ds ih =>
    have hnext := ih (h.step d)
    rwa [List.append_assoc, List.singleton_append] at hnext

theorem follows_nil : Follows [] [] := by
  refine ⟨fun p => ⟨nofun, ?_⟩, .nil⟩
  rintro ⟨past, rest, heq, -⟩
  exact absurd heq.symm (List.append_ne_nil_of_right_ne_nil _ (List.cons_ne_nil _ _))

end

/-! ### Registries -/

/-- A registry after some calls, empty before. -/
def ofCalls (cs : List Call) : Registry := after perform empty cs

section

variable {r : Registry} {p : Processor} {name : String}

theorem values_putPair {l : List (String × Processor)} (hl : ∀ e ∈ l, e.2.name = e.1) :
    (putPair p.name p l).map Prod.snd = put p (l.map Prod.snd) := by
  induction l with
  | nil => rfl
  | cons e rest ih =>
    obtain ⟨name, q⟩ := e
    rw [List.forall_mem_cons] at hl
    have hname : q.name = name := hl.1
    rw [putPair, List.map_cons, put, hname]
    by_cases hp : name = p.name
    · rw [if_pos hp, if_pos hp, List.map_cons]
    · rw [if_neg hp, if_neg hp, List.map_cons, ih hl.2]

theorem IsNamed.entries (hr : r.IsNamed) : ∀ e ∈ r.processors.entries, e.2.name = e.1 :=
  fun e he => hr e.1 e.2 ((Table.mem_entries_iff _).mp he)

theorem IsNamed.snapshot_register (hr : r.IsNamed) (p : Processor) :
    (r.register p).snapshot = put p r.snapshot :=
  values_putPair hr.entries

theorem IsNamed.snapshot_unregister (hr : r.IsNamed) (name : String) :
    (r.unregister name).2.snapshot = r.snapshot.filter (·.name ≠ name) := by
  have hkeep : ∀ e ∈ r.processors.entries,
      decide (e.1 ≠ name) = decide (e.2.name ≠ name) := by
    intro e he
    rw [hr.entries e he]
  rw [snapshot, snapshot, Table.values, Table.values, List.filter_map]
  exact congrArg _ (List.filter_congr hkeep)

theorem unregister_eq_true_iff : (r.unregister name).1 = true ↔ name ∈ r.names :=
  Table.contains_iff_mem_keys r.processors name

/-- Something of a name is there just if leaving it out makes a list of processors shorter. -/
theorem length_filter_ne_iff {ps : List Processor} :
    ((ps.filter (·.name ≠ name)).length != ps.length) = true ↔ name ∈ ps.map (·.name) := by
  rw [bne_iff_ne, Ne, List.length_filter_eq_length_iff, List.mem_map]
  simp only [decide_eq_true_eq, not_forall, not_not, exists_prop]

/-- A registry answers a call as the plain list of its processors does, and has the same processors
afterwards. -/
theorem IsNamed.perform_eq (hr : r.IsNamed) (c : Call) :
    (perform r c).1 = (performPlain r.snapshot c).1 ∧
      (perform r c).2.snapshot = (performPlain r.snapshot c).2 := by
  cases c with
  | register p => exact ⟨rfl, hr.snapshot_register p⟩
  | unregister name =>
    refine ⟨congrArg Reply.removed ?_, hr.snapshot_unregister name⟩
    rw [Bool.eq_iff_iff, unregister_eq_true_iff, length_filter_ne_iff, hr.names_eq]
  | snapshot => exact ⟨rfl, rfl⟩
  | names => exact ⟨congrArg Reply.names hr.names_eq.symm, rfl⟩

theorem IsNamed.performed (hr : r.IsNamed) (c : Call) : (perform r c).2.IsNamed := by
  cases c with
  | register p => exact hr.register p
  | unregister name => exact hr.unregister name
  | snapshot => exact hr
  | names => exact hr

theorem IsNamed.after_eq (hr : r.IsNamed) (cs : List Call) :
    (after perform r cs).IsNamed ∧
      replies perform r cs = replies performPlain r.snapshot cs ∧
      (after perform r cs).snapshot = after performPlain r.snapshot cs := by
  induction cs generalizing r with
  | nil => exact ⟨hr, rfl, rfl⟩
  | cons c cs ih =>
    obtain ⟨hreply, hsnapshot⟩ := hr.perform_eq c
    obtain ⟨hnamed, hreplies, hafter⟩ := ih (hr.performed c)
    rw [hsnapshot] at hreplies hafter
    exact ⟨hnamed, congrArg₂ List.cons hreply hreplies, hafter⟩

end

/-- What holds of a registry after some calls on an empty one. -/
structure InsertionOrdered (cs : List Call) (r : Registry) : Prop where
  distinct : r.names.Nodup
  order : r.names.Pairwise (Earlier cs)
  named : r.snapshot.map (·.name) = r.names
  latest : ∀ p, p ∈ r.snapshot ↔ Stands cs p
  /-- A processor takes the place of the one of its name. -/
  replaces : ∀ p, p.name ∈ r.names → (r.register p).names = r.names ∧
    (r.register p).snapshot = r.snapshot.map fun q => if q.name = p.name then p else q
  /-- A new name goes last. -/
  appends : ∀ p, p.name ∉ r.names → (r.register p).names = r.names ++ [p.name] ∧
    (r.register p).snapshot = r.snapshot ++ [p]
  removes : ∀ name, ((r.unregister name).1 = true ↔ name ∈ r.names) ∧
    (r.unregister name).2.names = r.names.filter (· ≠ name) ∧
    (r.unregister name).2.snapshot = r.snapshot.filter (·.name ≠ name)
  /-- Whatever calls come later, a snapshot taken now is of the processors now. -/
  detached : ∀ later, (replies perform empty (cs ++ .snapshot :: later))[cs.length]? =
    some (.processors r.snapshot)
  /-- A list of processors that is searched for names replies the same. -/
  plain : replies perform empty cs = replies performPlain [] cs

/-- A registry keeps processors under their names, in the order in which the names came to stand. -/
theorem insertionOrdered (cs : List Call) : InsertionOrdered cs (ofCalls cs) := by
  obtain ⟨hnamed, hreplies, hsnapshot⟩ := isNamed_empty.after_eq cs
  rw [← ofCalls] at hnamed hsnapshot
  have hfollows : Follows cs (ofCalls cs).snapshot := by
    rw [hsnapshot]
    exact follows_nil.run cs
  have hnames := hnamed.names_eq
  have hdistinct : ((ofCalls cs).snapshot.map (·.name)).Nodup := hfollows.nodup
  have hkeys : ∀ p, ((ofCalls cs).register p).names = (put p (ofCalls cs).snapshot).map (·.name) :=
    fun p => by rw [← (hnamed.register p).names_eq, hnamed.snapshot_register]
  exact {
    distinct := hnames ▸ hdistinct
    order := hnames ▸ List.pairwise_map.mpr hfollows.order
    named := hnames
    latest := hfollows.stands
    replaces := by
      intro p hp
      rw [← hnames] at hp
      have hput := put_of_mem hdistinct hp
      refine ⟨?_, (hnamed.snapshot_register p).trans hput⟩
      rw [hkeys, hput, List.map_map, ← hnames]
      exact List.map_congr_left fun q _ => name_replaced p q
    appends := by
      intro p hp
      rw [← hnames] at hp
      have hput := put_of_not_mem hp
      refine ⟨?_, (hnamed.snapshot_register p).trans hput⟩
      rw [hkeys, hput, List.map_append, ← hnames]
      rfl
    removes := fun name =>
      ⟨unregister_eq_true_iff, Table.keys_erase _ _, hnamed.snapshot_unregister name⟩
    detached := by
      intro later
      rw [replies_append, List.getElem?_append_right (Nat.le_of_eq (length_replies _ _ _)),
        length_replies, Nat.sub_self]
      rfl
    plain := hreplies }

end SessionGateway.Registry
