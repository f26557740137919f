import SessionGateway.Proofs.Program.Runs
import SessionGateway.Startup

/-!
# What the log of a starting node tells of its Redis server

The address of a Redis server may hold a password between the mark behind its scheme and its last
at sign. A node that opens its store mentions the address twice: redacted, when the server took its
connection, and as it stands in the settings, when the server has given a sign of life. So the log
shows who asks exactly if the opening is completed, and shows it in that one field only.
-/

namespace SessionGateway

namespace Redis

/-- An address without what stands between its first mark and its last at sign. -/
structure Spelling where
  scheme : String
  place : String
  scheme_ends : ¬ "://".toList <:+: scheme.toList
  place_begins : '@' ∉ place.toList

theorem atScheme?_append (rest : List Char) : ∀ {scheme : List Char}, ¬ "://".toList <:+: scheme →
    atScheme? (scheme ++ ':' :: '/' :: '/' :: rest) = some (scheme, rest)
  | [], _ => rfl
  | c :: scheme, h => by
    have hscheme : ¬ "://".toList <:+: scheme :=
      fun hin => h (hin.trans (List.suffix_cons c _).isInfix)
    -- A mark at the front would lie in the scheme, which has none, or share a character with the
    -- mark behind it.
    have hfront : ∀ rest', c = ':' → scheme ++ ':' :: '/' :: '/' :: rest = '/' :: '/' :: rest' →
        False := by
      rintro rest' rfl heq
      rcases scheme with - | ⟨a, - | ⟨b, scheme⟩⟩
      · simp at heq
      · simp at heq
      · obtain ⟨rfl, rfl, -⟩ : a = '/' ∧ b = '/' ∧ _ := by simpa using heq
        exact h (List.prefix_append _ scheme).isInfix
    rw [List.cons_append, atScheme?.eq_3 c _ hfront, atScheme?_append rest hscheme]
    rfl

theorem atLast?_append (before : List Char) {behind : List Char} (h : '@' ∉ behind) :
    Text.atLast? '@' (before ++ '@' :: behind) = some (before, behind) := by
  have hbehind : ∀ c ∈ behind.reverse, decide (c ≠ '@') = true := by
    intro c hc
    refine decide_eq_true ?_
    rintro rfl
    exact h (List.mem_reverse.mp hc)
  rw [Text.atLast?, Text.atFirst?, List.reverse_append, List.reverse_cons, List.append_assoc,
    List.singleton_append, List.dropWhile_append_of_pos hbehind,
    List.takeWhile_append_of_pos hbehind]
  simp

namespace Spelling

variable (a : Spelling)

/-- The address with a given text between the mark and the last at sign. -/
def url (who : String) : String := a.scheme ++ "://" ++ who ++ "@" ++ a.place

theorem toList_url (who : String) :
    (a.url who).toList =
      a.scheme.toList ++ ':' :: '/' :: '/' :: (who.toList ++ '@' :: a.place.toList) := by
  simp [url]

theorem url_inj {who who' : String} : a.url who = a.url who' ↔ who = who' := by
  simp [← String.toList_inj, toList_url]

/-- Redacting replaces who asks, marks and at signs in it included. -/
theorem redact_url (who : String) : redact (a.url who) = a.url "***" := by
  rw [redact, toList_url, atScheme?_append _ a.scheme_ends]
  simp only [atLast?_append who.toList a.place_begins]
  rw [← String.toList_inj, toList_url]
  simp

end Spelling

end Redis

namespace Startup

/-- A Redis server: what it answers in each of its states, and the state afterwards. -/
abbrev Serve (σ : Type) : Type := (r : Redis.Request) → σ → r.Answer × σ

/-- The Redis server of a starting node, and what the node logged, oldest first. -/
structure Scene (σ : Type) where
  server : σ
  logged : List Log.Event

variable {σ : Type}

/-- Answers a node that does not come to listen. -/
def Scene.answer (serve : Serve σ) : (r : Request) → Scene σ → r.Answer × Scene σ
  | .showLog _, m => ((), m)
  | .log e, m => ((), { m with logged := m.logged ++ [e] })
  | .redis r, m => ((serve r m.server).1, { m with server := (serve r m.server).2 })
  | .listen _ _, m => (none, m)

/-- The events at INFO and above of opening the store. -/
def openingLog (serve : Serve σ) (s : σ) (c : CacheSettings) : List Log.Event :=
  ((openStore c).run (Scene.answer serve) (⟨s, []⟩ : Scene σ)).2.logged.filter Log.Event.isShown

/-- How far a server lets a node come. -/
inductive Welcome where
  | refused
  /-- The connection is taken, but nothing comes back. -/
  | silent
  | alive
  deriving DecidableEq, Repr

/-- What comes of connecting to the server at an address and asking for a sign of life. -/
def welcome (serve : Serve σ) (s : σ) (url : String) : Welcome :=
  match (Redis.connect url).run serve s with
  | (.error _, _) => .refused
  | (.ok _, s') =>
    match (Redis.ping.run serve s').1 with
    | .error _ => .silent
    | .ok () => .alive

/-- The events of opening the store at an address. -/
def Welcome.log (url : String) : Welcome → List Log.Event
  | .refused => []
  | .silent => [Redis.connected url]
  | .alive => [Redis.connected url, storeConnected url]

theorem run_redis (serve : Serve σ) {α : Type} (c : Redis.Conversation α) (m : Scene σ) :
    (redis c).run (Scene.answer serve) m =
      ((c.run serve m.server).1, { m with server := (c.run serve m.server).2 }) := by
  induction c generalizing m with
  | done a => rfl
  | ask r next ih => exact ih _ _

theorem connect_ends (url : String) :
    (Redis.connect url).Ends fun e => ∀ event, e = .ok event → event = Redis.connected url := by
  have hlost : ∀ e : CacheError, ∀ event,
      (Except.error e : Except CacheError Log.Event) = .ok event → event = Redis.connected url := by
    intro e event h
    cases h
  unfold Redis.connect
  cases Redis.Address.ofUrl? url with
  | none => exact hlost _
  | some address =>
    intro taken
    cases taken with
    | false => exact hlost _
    | true =>
      show ((Redis.greet address.greeting).bind _).Ends _
      refine Program.ends_bind.mpr (Program.ends_of_forall ?_ _)
      rintro (e | ⟨⟩)
      · exact hlost _
      · rintro event ⟨⟩
        rfl

theorem event_of_connect {serve : Serve σ} {s s' : σ} {url : String} {event : Log.Event}
    (h : (Redis.connect url).run serve s = (.ok event, s')) : event = Redis.connected url := by
  refine (connect_ends url).of_run serve s event ?_
  rw [h]

/-- The log of opening the store, from how far the server lets the node come. -/
theorem openingLog_eq (serve : Serve σ) (s : σ) {c : CacheSettings} (hc : c.backend = .redis) :
    openingLog serve s c = (welcome serve s c.redisUrl).log c.redisUrl := by
  rw [openingLog, openStore, hc, welcome]
  simp only [Program.bind_eq, Program.run_bind, run_redis]
  rcases hconnect : (Redis.connect c.redisUrl).run serve s with ⟨e | event, s'⟩
  · simp only [hconnect]
    rfl
  · obtain rfl := event_of_connect hconnect
    simp only [hconnect, Program.run_bind, run_redis]
    have hlogged : (log (Redis.connected c.redisUrl)).run (Scene.answer serve) ⟨s', []⟩ =
        ((), ⟨s', [Redis.connected c.redisUrl]⟩) := rfl
    rw [hlogged]
    rcases hping : (Redis.ping.run serve s').1 with e | ⟨⟩
    · simp only [hping]
      rfl
    · simp only [hping]
      rfl

/-- An event with its addresses redacted. -/
def concealed (e : Log.Event) : Log.Event :=
  { e with fields := e.fields.map fun f => if f.1 = "url" then (f.1, Redis.redact f.2) else f }

section

variable (a : Redis.Spelling) (w : Welcome)

theorem head?_log (who : String) :
    (w.log (a.url who)).head? = (w.log (a.url "***")).head? := by
  cases w <;> simp [Welcome.log, Redis.connected, a.redact_url]

theorem map_concealed_log (who : String) :
    (w.log (a.url who)).map concealed = w.log (a.url "***") := by
  cases w <;> simp [Welcome.log, concealed, Redis.connected, storeConnected, Log.info, a.redact_url]

theorem log_eq_log_iff {who who' : String} :
    w.log (a.url who) = w.log (a.url who') ↔ who = who' ∨ w ≠ .alive := by
  cases w <;>
    simp [Welcome.log, Redis.connected, storeConnected, Log.info, a.redact_url, a.url_inj]

end

/-- Two nodes open the store of one server, which lets both come equally far, and differ in who
asks. What they log of being connected agrees, and everything agrees once addresses are redacted; as
it stands it agrees only for equal callers, or if the opening is not completed. -/
theorem openingLog_shows_caller (serve : Serve σ) (s : σ) (c : CacheSettings)
    (hc : c.backend = .redis) (a : Redis.Spelling) (who who' : String)
    (halike : welcome serve s (a.url who) = welcome serve s (a.url who')) :
    let log := fun w => openingLog serve s { c with redisUrl := a.url w }
    (log who).head? = (log who').head? ∧
    (log who).map concealed = (log who').map concealed ∧
    (log who = log who' ↔ who = who' ∨ welcome serve s (a.url who) ≠ .alive) := by
  intro log
  have hlog : ∀ w, log w = (welcome serve s (a.url w)).log (a.url w) := fun w =>
    openingLog_eq serve s hc
  rw [hlog, hlog, ← halike]
  refine ⟨?_, ?_, log_eq_log_iff a _⟩
  · rw [head?_log a _ who, head?_log a _ who']
  · rw [map_concealed_log, map_concealed_log]

/-- A server that takes every connection and answers every command. -/
def obliging : Serve Unit
  | .dial _, s => (true, s)
  | .command _, s => (some (.status "PONG"), s)
  | .transaction _, s => (some .nil, s)

def onRedis : CacheSettings := { backend := .redis }

def atCache : Redis.Spelling := ⟨"redis", "cache:6379/0", by decide, by decide⟩

theorem welcome_obliging_old : welcome obliging () (atCache.url ":old") = .alive := by
  decide +kernel

theorem welcome_obliging_new : welcome obliging () (atCache.url ":n@w") = .alive := by
  decide +kernel

theorem openingLog_shows_password :
    onRedis.backend = .redis ∧
    welcome obliging () (atCache.url ":old") = welcome obliging () (atCache.url ":n@w") ∧
    let log := fun w => openingLog obliging () { onRedis with redisUrl := atCache.url w }
    (log ":old").head? = (log ":n@w").head? ∧
    (log ":old").map concealed = (log ":n@w").map concealed ∧
    (log ":old" = log ":n@w" ↔
      ":old" = ":n@w" ∨ welcome obliging () (atCache.url ":old") ≠ .alive) := by
  have halike := welcome_obliging_old.trans welcome_obliging_new.symm
  exact ⟨rfl, halike, openingLog_shows_caller obliging () onRedis rfl atCache _ _ halike⟩

/-- Nodes that differ in their password alone, and are served alike, do not log alike. -/
theorem openingLog_of_passwords_ne :
    welcome obliging () (atCache.url ":old") = welcome obliging () (atCache.url ":n@w") ∧
    openingLog obliging () { onRedis with redisUrl := atCache.url ":old" } ≠
      openingLog obliging () { onRedis with redisUrl := atCache.url ":n@w" } := by
  refine ⟨welcome_obliging_old.trans welcome_obliging_new.symm, ?_⟩
  rw [openingLog_eq obliging () rfl, openingLog_eq obliging () rfl, welcome_obliging_old,
    welcome_obliging_new, Ne, log_eq_log_iff]
  simp

end Startup

end SessionGateway
