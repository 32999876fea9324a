import DumpLedger.Lib.FixedWindow
import DumpLedger.Lib.Run
import DumpLedger.Lib.TableSize
import DumpLedger.Webhooks.Dispatcher

/-!
# The rate limiter

Attempts are counted per key in fixed windows. The entries are an insertion-ordered map; an
attempt first drops the windows that are over, and a new key takes the place of the one seen
longest ago when the map is full.

Times are exact numbers of milliseconds.
-/

namespace DumpLedger

open Lib

/-- The options of the constructor; a number that is not finite passes none of its checks. -/
structure FixedWindowRateLimiterOptions where
  limit : ℚ
  windowMs : ℚ
  maxKeys : ℚ

/-- What the constructor accepts. -/
structure FixedWindowRateLimiter where
  limit : ℕ+
  windowMs : ℚ
  maxKeys : ℕ+
  windowMs_pos : 0 < windowMs

/-- The constructor. -/
def FixedWindowRateLimiter.of (options : FixedWindowRateLimiterOptions) :
    Except Thrown FixedWindowRateLimiter := do
  let limit ← positiveInteger options.limit "rate limit"
  if windowMs_pos : 0 < options.windowMs then
    let maxKeys ← positiveInteger options.maxKeys "maxKeys"
    return { limit, windowMs := options.windowMs, maxKeys, windowMs_pos }
  else throw (.rangeError "rate window must be positive")

/-- An entry of the map, with its key. -/
structure WindowEntry where
  client : String
  startedAt : ℚ
  attempts : Nat
  lastSeenAt : ℚ
  deriving DecidableEq

instance WindowEntry.keyed : Keyed WindowEntry String := ⟨WindowEntry.client⟩

@[simp] theorem WindowEntry.key_eq (e : WindowEntry) : key e = e.client := rfl

/-- A call of `take` and what the clock says in it. -/
structure Take where
  key : String
  now : ℚ
  deriving DecidableEq

namespace FixedWindowRateLimiter

/-- `Map.prototype.set`: an entry keeps its place, a new one goes to the end. -/
def set (entries : Table WindowEntry) (entry : WindowEntry) : Table WindowEntry :=
  if h : entries.find? entry.client = none then entries.insert entry h
  else entries.updateKey entry.client (fun e => { entry with client := e.client }) fun _ => rfl

def prune (limiter : FixedWindowRateLimiter) (now : ℚ) (entries : Table WindowEntry) :
    Table WindowEntry :=
  entries.delete fun entry => decide (limiter.windowMs ≤ now - entry.startedAt)

/-- The loop of `#evictOldest`: the first entry that was seen before all the others. -/
def oldest (found : Option WindowEntry) : List WindowEntry → Option WindowEntry
  | [] => found
  | entry :: rest =>
    match found with
    | none => oldest (some entry) rest
    | some current =>
      oldest (if entry.lastSeenAt < current.lastSeenAt then some entry else some current) rest

def evictOldest (entries : Table WindowEntry) : Table WindowEntry :=
  match oldest none entries.rows with
  | none => entries
  | some entry => entries.delete fun e => decide (e.client = entry.client)

def take (limiter : FixedWindowRateLimiter) (key : String) (now : ℚ)
    (entries : Table WindowEntry) : Bool × Table WindowEntry :=
  let entries := limiter.prune now entries
  match entries.find? key with
  | some current =>
    if now - current.startedAt < limiter.windowMs then
      (decide (current.attempts < limiter.limit),
        set entries { current with attempts := current.attempts + 1, lastSeenAt := now })
    else (true, set entries ⟨key, now, 1, now⟩)
  | none =>
    if limiter.maxKeys ≤ entries.size then
      (true, set (evictOldest entries) ⟨key, now, 1, now⟩)
    else (true, set entries ⟨key, now, 1, now⟩)

/-! ## Runs -/

def step (limiter : FixedWindowRateLimiter) (entries : Table WindowEntry) (t : Take) :
    Table WindowEntry :=
  (limiter.take t.key t.now entries).2

/-- The entries after a sequence of calls. -/
def after (limiter : FixedWindowRateLimiter) (takes : List Take) : Table WindowEntry :=
  run limiter.step Table.empty takes

/-- What a call was answered, and the window it was counted in. -/
def attempt (limiter : FixedWindowRateLimiter) (entries : Table WindowEntry) (t : Take) :
    Attempt ℚ where
  now := t.now
  startedAt := (((limiter.step entries t).find? t.key).map WindowEntry.startedAt).getD t.now
  admitted := (limiter.take t.key t.now entries).1

/-- The calls for one key among a sequence of calls. -/
def attemptsOf (limiter : FixedWindowRateLimiter) (key : String) :
    Table WindowEntry → List Take → List (Attempt ℚ)
  | _, [] => []
  | entries, t :: rest =>
    if t.key = key then
      limiter.attempt entries t :: limiter.attemptsOf key (limiter.step entries t) rest
    else limiter.attemptsOf key (limiter.step entries t) rest

/-- The call drops the entry of a key whose window is not over. -/
def Evicts (limiter : FixedWindowRateLimiter) (key : String) (entries : Table WindowEntry)
    (t : Take) : Prop :=
  (limiter.prune t.now entries).contains key = true ∧
    (limiter.step entries t).contains key = false

instance Evicts.decidable (limiter : FixedWindowRateLimiter) (key : String)
    (entries : Table WindowEntry) (t : Take) : Decidable (limiter.Evicts key entries t) :=
  inferInstanceAs (Decidable (_ ∧ _))

/-- The keys that would have an open window each if no other key had been used. -/
def liveKeys (limiter : FixedWindowRateLimiter) (takes : List Take) (now : ℚ) : Finset String :=
  (takes.map Take.key).toFinset.filter fun key =>
    ∃ entry ∈ (limiter.after (takes.filter fun t => t.key = key)).find? key,
      now - entry.startedAt < limiter.windowMs

end FixedWindowRateLimiter

end DumpLedger
