import Mathlib.Data.String.Basic
import SessionGateway.Settings.Correct

/-!
# What corrections leave

Nine fields are checked, each against a condition that may read one other field. A field keeps its
value if that meets the condition beside the corrected others and gets its remedy otherwise. As no
rule writes what a rule before it has read, what is put right stays right, and a second correction
finds nothing.
-/

namespace SessionGateway.Settings

/-- A field that is corrected if it does not meet its condition. -/
inductive Checked where
  | wsPath
  | pingInterval
  | pongTimeout
  | requestTimeout
  | lockTimeout
  | processorTimeout
  | reconcileInterval
  | entryTtl
  | secretKey
  deriving DecidableEq, Repr

/-- The field that a correction is about. -/
def Correction.field : Correction → Checked
  | .wsPath .. => .wsPath
  | .pingInterval => .pingInterval
  | .pongTimeout .. => .pongTimeout
  | .requestTimeout => .requestTimeout
  | .lockTimeout => .lockTimeout
  | .processorTimeout => .processorTimeout
  | .reconcileInterval => .reconcileInterval
  | .entryTtl .. => .entryTtl
  | .secretKey => .secretKey

namespace Checked

/-- In the order in which they are corrected. -/
def all : List Checked :=
  [wsPath, pingInterval, pongTimeout, requestTimeout, lockTimeout, processorTimeout,
    reconcileInterval, entryTtl, secretKey]

def rule : Checked → Rule
  | wsPath => Rule.wsPath
  | pingInterval => Rule.pingInterval
  | pongTimeout => Rule.pongTimeout
  | requestTimeout => Rule.requestTimeout
  | lockTimeout => Rule.lockTimeout
  | processorTimeout => Rule.processorTimeout
  | reconcileInterval => Rule.reconcileInterval
  | entryTtl => Rule.entryTtl
  | secretKey => Rule.secretKey

/-- The other field that a condition reads. -/
def reads? : Checked → Option Checked
  | pongTimeout => some pingInterval
  | entryTtl => some reconcileInterval
  | _ => none

abbrev Value : Checked → Type
  | wsPath => String
  | secretKey => Option String
  | _ => UInt64

instance : (f : Checked) → DecidableEq f.Value
  | wsPath => inferInstanceAs (DecidableEq String)
  | secretKey => inferInstanceAs (DecidableEq (Option String))
  | pingInterval | pongTimeout | requestTimeout | lockTimeout | processorTimeout
  | reconcileInterval | entryTtl => inferInstanceAs (DecidableEq UInt64)

def get (s : Settings) : (f : Checked) → f.Value
  | wsPath => s.server.wsPath
  | pingInterval => s.server.pingIntervalSecs
  | pongTimeout => s.server.pongTimeoutSecs
  | requestTimeout => s.auth.requestTimeoutMs
  | lockTimeout => s.registration.lockTimeoutMs
  | processorTimeout => s.dispatch.processorTimeoutMs
  | reconcileInterval => s.cache.reconcileIntervalSecs
  | entryTtl => s.cache.entryTtlSecs
  | secretKey => s.security.secretKey

def put (s : Settings) : (f : Checked) → f.Value → Settings
  | wsPath, v => { s with server := { s.server with wsPath := v } }
  | pingInterval, v => { s with server := { s.server with pingIntervalSecs := v } }
  | pongTimeout, v => { s with server := { s.server with pongTimeoutSecs := v } }
  | requestTimeout, v => { s with auth := { s.auth with requestTimeoutMs := v } }
  | lockTimeout, v => { s with registration := ⟨v⟩ }
  | processorTimeout, v => { s with dispatch := { s.dispatch with processorTimeoutMs := v } }
  | reconcileInterval, v => { s with cache := { s.cache with reconcileIntervalSecs := v } }
  | entryTtl, v => { s with cache := { s.cache with entryTtlSecs := v } }
  | secretKey, v => { s with security := ⟨v⟩ }

/-- A value for a field meets the condition of the field beside what else is in the settings. -/
def Meets (s : Settings) : (f : Checked) → f.Value → Prop
  | wsPath, path => path.toList.head? = some '/' ∧ 2 ≤ path.utf8ByteSize
  | pongTimeout, secs => s.server.pingIntervalSecs < secs
  | entryTtl, secs => s.cache.reconcileIntervalSecs < secs
  | secretKey, key => key ≠ some ""
  | pingInterval, n | requestTimeout, n | lockTimeout, n | processorTimeout, n
  | reconcileInterval, n => n ≠ 0

instance (s : Settings) : (f : Checked) → (v : f.Value) → Decidable (f.Meets s v)
  | wsPath, _ => inferInstanceAs (Decidable (_ ∧ _))
  | pongTimeout, _ | entryTtl, _ => inferInstanceAs (Decidable (_ < _))
  | secretKey, _ | pingInterval, _ | requestTimeout, _ | lockTimeout, _ | processorTimeout, _
  | reconcileInterval, _ => inferInstanceAs (Decidable (¬ _))

/-- What is put in the place of a value that does not meet the condition. -/
def remedy (s : Settings) : (f : Checked) → f.Value → f.Value
  | wsPath, path => absolutePath path
  | pingInterval, _ => 30
  | pongTimeout, _ => s.server.pingIntervalSecs * 2
  | requestTimeout, _ => 5000
  | lockTimeout, _ => 10000
  | processorTimeout, _ => 30000
  | reconcileInterval, _ => 60
  | entryTtl, _ => s.cache.reconcileIntervalSecs * 3
  | secretKey, _ => none

end Checked

/-- Everything that is not checked. -/
def unchecked (s : Settings) :=
  (s.node, s.server.host, s.server.port, s.server.maxMessageSize, s.server.sendQueueCapacity,
    s.auth.oauthUrl, s.cache.backend, s.cache.redisUrl, s.cache.keyPrefix, s.dispatch.heartbeat,
    s.logging)

/-- No multiple of an interval that a correction needs is too large for a field. -/
structure Spacious (s : Settings) : Prop where
  pong : s.server.pongTimeoutSecs ≤ s.server.pingIntervalSecs →
    s.server.pingIntervalSecs.toNat * 2 < UInt64.size
  ttl : s.cache.entryTtlSecs ≤ s.cache.reconcileIntervalSecs →
    s.cache.reconcileIntervalSecs.toNat * 3 < UInt64.size

/-! ### Paths -/

theorem isAbsolute_iff {path : String} :
    isAbsolute path = true ↔ path.toList.head? = some '/' ∧ 2 ≤ path.utf8ByteSize := by
  obtain ⟨cs, rfl⟩ : ∃ cs, path = String.ofList cs := ⟨path.toList, String.ofList_toList.symm⟩
  rw [isAbsolute, String.toList_ofList, String.utf8ByteSize_ofList]
  rcases cs with _ | ⟨c, _ | ⟨c', cs⟩⟩
  · simp
  · by_cases hc : c = '/'
    · subst hc
      decide
    · simp [hc]
  · by_cases hc : c = '/'
    · subst hc
      have hsize := c'.utf8Size_pos
      have hslash : Char.utf8Size '/' = 1 := by decide
      simp [String.utf8Len, hslash]
      omega
    · simp [hc]

theorem isAbsolute_absolutePath (path : String) : isAbsolute (absolutePath path) = true := by
  rw [absolutePath]
  split
  · decide
  · next rest hne =>
    cases hrest : List.dropWhile (· = '/') path.toList with
    | nil => exact absurd hrest hne
    | cons c cs =>
      rw [isAbsolute, String.toList_ofList]
      rfl

namespace Checked

variable {s s' : Settings} {f g : Checked} {fs : List Checked}

/-! ### Getting and putting -/

@[simp] theorem get_put_self (s : Settings) (f : Checked) (v : f.Value) :
    get (put s f v) f = v := by
  cases f <;> rfl

theorem get_put_ne (hne : g ≠ f) (s : Settings) (v : f.Value) : get (put s f v) g = get s g := by
  cases f <;> cases g <;> first | rfl | exact absurd rfl hne

@[simp] theorem unchecked_put (s : Settings) (f : Checked) (v : f.Value) :
    unchecked (put s f v) = unchecked s := by
  cases f <;> rfl

theorem meets_put (hreads : g.reads? ≠ some f) (s : Settings) (v : f.Value) (w : g.Value) :
    g.Meets (put s f v) w ↔ g.Meets s w := by
  cases f <;> cases g <;> first | rfl | exact absurd rfl hreads

theorem remedy_put (hreads : g.reads? ≠ some f) (s : Settings) (v : f.Value) (w : g.Value) :
    remedy (put s f v) g w = remedy s g w := by
  cases f <;> cases g <;> first | rfl | exact absurd rfl hreads

/-! ### Rules -/

/-- A rule leaves settings whose field meets its condition alone and puts the remedy otherwise. -/
theorem rule_eq_none (h : f.Meets s (get s f)) : f.rule s = none := by
  cases f with
  | wsPath => exact if_pos (isAbsolute_iff.mpr h)
  | secretKey => exact if_neg h
  | _ => exact if_pos h

theorem rule_eq_some (h : ¬ f.Meets s (get s f)) :
    ∃ c : Correction, c.field = f ∧ f.rule s = some (put s f (remedy s f (get s f)), c) := by
  cases f with
  | wsPath => exact ⟨_, rfl, if_neg fun habsolute => h (isAbsolute_iff.mp habsolute)⟩
  | secretKey => exact ⟨_, rfl, if_pos (not_not.mp h)⟩
  | _ => exact ⟨_, rfl, if_neg h⟩

/-- A field comes before another one: it is not the other, and it does not read it. -/
def Precedes (f g : Checked) : Prop := f ≠ g ∧ f.reads? ≠ some g

theorem reads?_ne_self (f : Checked) : f.reads? ≠ some f := by
  cases f <;> decide

theorem mem_all (f : Checked) : f ∈ all := by
  cases f <;> decide

theorem pairwise_all : all.Pairwise Precedes := by
  simp [all, Precedes, reads?]

/-- What rules make of settings, each the rule of one of some fields. -/
structure Applied (fs : List Checked) (s s' : Settings) (told : List Correction) : Prop where
  value : ∀ f ∈ fs, get s' f =
    if f.Meets s' (get s f) then get s f else remedy s' f (get s f)
  spared : ∀ f, f ∉ fs → get s' f = get s f
  unchecked : unchecked s' = unchecked s
  meets : ∀ f : Checked, (∀ g ∈ fs, f.reads? ≠ some g) → ∀ v, f.Meets s' v ↔ f.Meets s v
  remedy : ∀ f : Checked, (∀ g ∈ fs, f.reads? ≠ some g) → ∀ v, remedy s' f v = remedy s f v
  told : told.map Correction.field = fs.filter fun f => ¬ f.Meets s' (get s f)

theorem applied_nil (s : Settings) : Applied [] s s [] where
  value := nofun
  spared _ _ := rfl
  unchecked := rfl
  meets _ _ _ := Iff.rfl
  remedy _ _ _ := rfl
  told := rfl

theorem applied_of_meets (h : f.Meets s (get s f)) : Applied [f] s s [] where
  value g hg := by
    obtain rfl := List.mem_singleton.mp hg
    rw [if_pos h]
  spared _ _ := rfl
  unchecked := rfl
  meets _ _ _ := Iff.rfl
  remedy _ _ _ := rfl
  told := by simp [h]

theorem applied_of_not_meets {c : Correction} (h : ¬ f.Meets s (get s f)) (hc : c.field = f) :
    Applied [f] s (put s f (remedy s f (get s f))) [c] where
  value g hg := by
    obtain rfl := List.mem_singleton.mp hg
    have hnot := (meets_put (reads?_ne_self g) s (remedy s g (get s g)) (get s g)).not.mpr h
    rw [get_put_self, if_neg hnot, remedy_put (reads?_ne_self g)]
  spared g hg := get_put_ne (fun heq => hg (List.mem_singleton.mpr heq)) s _
  unchecked := unchecked_put s f _
  meets g hg := meets_put (hg f List.mem_cons_self) s _
  remedy g hg := remedy_put (hg f List.mem_cons_self) s _
  told := by simp [hc, meets_put (reads?_ne_self f), h]

/-- Rules after one that neither write its field nor what its condition reads. -/
theorem Applied.cons {s₁ : Settings} {told told' : List Correction}
    (h : Applied [f] s s₁ told) (h' : Applied fs s₁ s' told') (hf : ∀ g ∈ fs, f.Precedes g) :
    Applied (f :: fs) s s' (told ++ told') := by
  have hfresh : f ∉ fs := fun hmem => (hf f hmem).1 rfl
  have hunread : ∀ g ∈ fs, f.reads? ≠ some g := fun g hg => (hf g hg).2
  have hsame : ∀ g ∈ fs, get s₁ g = get s g := by
    intro g hg
    apply h.spared
    rintro hmem
    obtain rfl := List.mem_singleton.mp hmem
    exact hfresh hg
  constructor
  · intro g hg
    rcases List.mem_cons.mp hg with rfl | hg
    · rw [h'.spared g hfresh, h.value g List.mem_cons_self]
      simp only [h'.meets g hunread, h'.remedy g hunread]
    · rw [h'.value g hg, hsame g hg]
  · intro g hg
    rw [List.mem_cons, not_or] at hg
    rw [h'.spared g hg.2, h.spared g fun hmem => hg.1 (List.mem_singleton.mp hmem)]
  · rw [h'.unchecked, h.unchecked]
  · intro g hg v
    obtain ⟨hgf, hg⟩ := List.forall_mem_cons.mp hg
    rw [h'.meets g hg, h.meets g (List.forall_mem_singleton.mpr hgf)]
  · intro g hg v
    obtain ⟨hgf, hg⟩ := List.forall_mem_cons.mp hg
    rw [h'.remedy g hg, h.remedy g (List.forall_mem_singleton.mpr hgf)]
  · have hself : f.Meets s' (get s f) ↔ f.Meets s₁ (get s f) := h'.meets f hunread _
    have hrest : fs.filter (fun g => ¬ g.Meets s' (get s₁ g)) =
        fs.filter fun g => ¬ g.Meets s' (get s g) := by
      apply List.filter_congr
      intro g hg
      rw [hsame g hg]
    rw [List.map_append, h.told, h'.told, hrest, List.filter_cons, List.filter_cons]
    simp only [hself]
    split <;> rfl

/-- The rules of fields none of which writes what a field before it reads. -/
theorem applied_applyRules (hfs : fs.Pairwise Precedes) (s : Settings) :
    Applied fs s (applyRules (fs.map rule) s).1 (applyRules (fs.map rule) s).2 := by
  induction fs generalizing s with
  | nil => exact applied_nil s
  | cons f rest ih =>
    obtain ⟨hf, hrest⟩ := List.pairwise_cons.mp hfs
    rw [List.map_cons, applyRules]
    by_cases hmeets : f.Meets s (get s f)
    · rw [rule_eq_none hmeets]
      exact (applied_of_meets hmeets).cons (ih hrest s) hf
    · obtain ⟨c, hc, hrule⟩ := rule_eq_some hmeets
      rw [hrule]
      exact (applied_of_not_meets hmeets hc).cons (ih hrest _) hf

/-- Rules that find every field in order do nothing. -/
theorem applyRules_of_meets (h : ∀ f ∈ fs, f.Meets s (get s f)) :
    applyRules (fs.map rule) s = (s, []) := by
  induction fs with
  | nil => rfl
  | cons f rest ih =>
    obtain ⟨hf, hrest⟩ := List.forall_mem_cons.mp h
    rw [List.map_cons, applyRules, rule_eq_none hf]
    exact ih hrest

/-! ### Remedies -/

/-- An interval, or its default if it is zero, is less than a multiple of it that is not too large
for a field. The multiple is taken only where a timeout does not exceed the interval. -/
theorem lt_multiple {n d n' k t : UInt64} (hn' : n' = if n ≠ 0 then n else d) (hk : 1 < k.toNat)
    (hd : 0 < d.toNat) (hdk : d.toNat * k.toNat < UInt64.size)
    (hfits : t ≤ n → n.toNat * k.toNat < UInt64.size) (hnot : ¬ n' < t) : n' < n' * k := by
  have hpos : 0 < n'.toNat ∧ n'.toNat * k.toNat < UInt64.size := by
    by_cases hn : n ≠ 0
    · rw [if_pos hn] at hn'
      subst hn'
      have hzero : n'.toNat ≠ 0 := fun heq => hn (UInt64.toNat_inj.mp heq)
      exact ⟨Nat.pos_of_ne_zero hzero, hfits (UInt64.not_lt.mp hnot)⟩
    · rw [if_neg hn] at hn'
      subst hn'
      exact ⟨hd, hdk⟩
  rw [UInt64.lt_iff_toNat_lt, UInt64.toNat_mul, Nat.mod_eq_of_lt hpos.2]
  exact (Nat.lt_mul_iff_one_lt_right hpos.1).mpr hk

theorem applied_correct (s : Settings) : Applied all s s.correct.1 s.correct.2 :=
  applied_applyRules pairwise_all s

/-- The remedy of a field whose condition reads no other field meets it beside anything. -/
theorem meets_remedy_of_reads_none (hreads : f.reads? = none) (s : Settings) (v : f.Value) :
    f.Meets s (remedy s f v) := by
  cases f with
  | wsPath => exact isAbsolute_iff.mp (isAbsolute_absolutePath _)
  | pongTimeout | entryTtl => cases hreads
  | secretKey | pingInterval | requestTimeout | lockTimeout | processorTimeout
  | reconcileInterval => simp [Meets, remedy]

theorem meets_remedy (h : Spacious s) (hnot : ¬ f.Meets s.correct.1 (get s f)) :
    f.Meets s.correct.1 (remedy s.correct.1 f (get s f)) := by
  have hping : s.correct.1.server.pingIntervalSecs =
      if s.server.pingIntervalSecs ≠ 0 then s.server.pingIntervalSecs else 30 :=
    (applied_correct s).value pingInterval (mem_all _)
  have hreconcile : s.correct.1.cache.reconcileIntervalSecs =
      if s.cache.reconcileIntervalSecs ≠ 0 then s.cache.reconcileIntervalSecs else 60 :=
    (applied_correct s).value reconcileInterval (mem_all _)
  cases f with
  | pongTimeout => exact lt_multiple hping (by decide) (by decide) (by decide) h.pong hnot
  | entryTtl => exact lt_multiple hreconcile (by decide) (by decide) (by decide) h.ttl hnot
  | wsPath | secretKey | pingInterval | requestTimeout | lockTimeout | processorTimeout
  | reconcileInterval => exact meets_remedy_of_reads_none rfl _ _

theorem meets_correct (h : Spacious s) (f : Checked) : f.Meets s.correct.1 (get s.correct.1 f) := by
  rw [(applied_correct s).value f (mem_all f)]
  split
  · next hmeets => exact hmeets
  · next hnot => exact meets_remedy h hnot

/-- A field changes just if its value does not meet its condition. -/
theorem get_correct_ne_iff (h : Spacious s) (f : Checked) :
    get s.correct.1 f ≠ get s f ↔ ¬ f.Meets s.correct.1 (get s f) := by
  constructor
  · intro hne hmeets
    apply hne
    rw [(applied_correct s).value f (mem_all f), if_pos hmeets]
  · intro hnot heq
    apply hnot
    rw [← heq]
    exact meets_correct h f

end Checked

open Checked (get)

/-- After a correction every checked field meets its condition. A field whose value met it beside
the corrected others has kept its value, and so has every field that is not checked. There is one
correction for each field that has changed, and correcting once more changes nothing. -/
theorem correct_exact {s : Settings} (h : Spacious s) :
    (∀ f : Checked, f.Meets s.correct.1 (get s.correct.1 f)) ∧
      (∀ f : Checked, f.Meets s.correct.1 (get s f) → get s.correct.1 f = get s f) ∧
      unchecked s.correct.1 = unchecked s ∧
      s.correct.2.map Correction.field =
        Checked.all.filter (fun f => get s.correct.1 f ≠ get s f) ∧
      s.correct.2.length = Checked.all.countP (fun f => get s.correct.1 f ≠ get s f) ∧
      s.correct.1.correct = (s.correct.1, []) := by
  have happlied := Checked.applied_correct s
  have hfields : s.correct.2.map Correction.field =
      Checked.all.filter (fun f => get s.correct.1 f ≠ get s f) := by
    rw [happlied.told]
    apply List.filter_congr
    intro f _
    exact decide_eq_decide.mpr (Checked.get_correct_ne_iff h f).symm
  refine ⟨Checked.meets_correct h, ?_, happlied.unchecked, hfields, ?_, ?_⟩
  · intro f hmeets
    rw [happlied.value f (Checked.mem_all f), if_pos hmeets]
  · rw [List.countP_eq_length_filter, ← hfields, List.length_map]
  · show applyRules (Checked.all.map Checked.rule) s.correct.1 = _
    exact Checked.applyRules_of_meets fun f _ => Checked.meets_correct h f

/-- Settings with five fields that are not in order. The pong timeout is one of them only once the
ping interval is corrected. -/
def neglected : Settings where
  server := { wsPath := "//", pingIntervalSecs := 0, pongTimeoutSecs := 20 }
  security := { secretKey := some "" }
  cache := { entryTtlSecs := 60 }
  registration := { lockTimeoutMs := 0 }

theorem neglected_corrected :
    Spacious neglected ∧ neglected.correct.2.length = 5 ∧
      Checked.pongTimeout.Meets neglected.correct.1 neglected.correct.1.server.pongTimeoutSecs ∧
      neglected.correct.1.server.wsPath = "//" ∧
      neglected.correct.1.correct = (neglected.correct.1, []) := by
  have hspacious : Spacious neglected := ⟨by decide, by decide⟩
  obtain ⟨hmeets, hkept, -, -, hcount, hagain⟩ := correct_exact hspacious
  refine ⟨hspacious, ?_, hmeets .pongTimeout, hkept .wsPath (by decide), hagain⟩
  rw [hcount]
  decide

end SessionGateway.Settings
