import Conductor.Duration
import Conductor.Number.Binary

/-!
# Backoff

How long to wait before a retry. The wait grows with the number of the retry, as the strategy says,
and never passes one minute. It is computed in binary numbers of 64 bits, every step rounded to the
nearest one; a step that leaves their range gives no number, and then the wait is the whole minute.
A strategy with jitter scatters the wait by a noise that depends on nothing but a seed and the
number of the retry.

* `RetryPolicy.delay` : the wait before a retry;
* `RetryPolicy.withJitter` : the policy with a jitter between 0 and 1;
* `RetryPolicy.codec` : the JSON of a policy.
-/

namespace Conductor

/-- How the wait grows. -/
inductive Strategy where
  | none
  | linear
  | exponential
  | exponentialJitter
  deriving DecidableEq, Repr, Inhabited

namespace Strategy

/-- All strategies. -/
def all : List Strategy := [.none, .linear, .exponential, .exponentialJitter]

/-- The word for a strategy. -/
def name : Strategy → String
  | .none => "none"
  | .linear => "linear"
  | .exponential => "exponential"
  | .exponentialJitter => "exponential_jitter"

/-- The strategy that a word stands for. -/
def ofName? (s : String) : Option Strategy := all.find? fun c => c.name == s

end Strategy

/-- How often a call is tried again and how long the waits are. -/
structure RetryPolicy where
  maxRetries : Nat
  baseBackoff : Duration
  strategy : Strategy
  jitter : Binary.Finite
  deriving DecidableEq, Repr, Inhabited

namespace RetryPolicy

open Binary (double Finite Extended)

/-- The value of the binary number nearest to a rational one, unless that is out of range. -/
def nearest (q : Rat) : Option Rat :=
  match double.ofRat q with
  | .finite x => some x.toRat
  | _ => none

/-! ### Noise -/

/-- One byte more in a running hash. -/
def hashByte (h : UInt64) (b : UInt8) : UInt64 := (h ^^^ b.toUInt64) * 0x00000100000001b3

/-- The four bytes of a number, the lowest first. -/
def bytesOf (n : Nat) : List UInt8 :=
  [n.toUInt8, (n / Nat.pow 2 8).toUInt8, (n / Nat.pow 2 16).toUInt8, (n / Nat.pow 2 24).toUInt8]

/-- Spreads the bits of a hash. -/
def spread (h : UInt64) : UInt64 :=
  let h := h + 0x9e3779b97f4a7c15
  let h := (h ^^^ (h >>> 30)) * 0xbf58476d1ce4e5b9
  let h := (h ^^^ (h >>> 27)) * 0x94d049bb133111eb
  h ^^^ (h >>> 31)

/-- A number from 0 up to 1 that depends on a seed and the number of a retry. -/
def noise (seed : String) (retry : Nat) : Rat :=
  let bytes := seed.toUTF8.toList ++ bytesOf retry
  let h := spread (bytes.foldl hashByte 0xcbf29ce484222325)
  mkRat (h >>> 11).toNat (Nat.pow 2 53)

/-! ### Waits -/

/-- The longest wait. -/
def longest : Duration := .seconds 60

/-- The base of a policy in seconds. -/
def baseSeconds (p : RetryPolicy) : Option Rat := do
  let whole ← nearest p.baseBackoff.wholeSeconds
  let part ← nearest (mkRat p.baseBackoff.subsecond Duration.perSecond)
  nearest (whole + part)

/-- The exponent of a retry: its number, as a signed number of 32 bits, less one. -/
def exponentOf (retry : Nat) : Int := Int.bmod (Int.bmod retry (Nat.pow 2 32) - 1) (Nat.pow 2 32)

/-- Two to a power. -/
def powerOfTwo (k : Int) : Option Rat :=
  if 1024 ≤ k then none
  else if 0 ≤ k then some (Nat.pow 2 k.toNat : Nat)
  else if k ≤ -1024 then some 0
  else some (mkRat 1 (Nat.pow 2 (-k).toNat))

/-- The base doubled with every retry. -/
def doubled (base : Rat) (retry : Nat) : Option Rat := do nearest (base * (← powerOfTwo (exponentOf retry)))

/-- A number between 0 and 1. -/
def unitClamp (q : Rat) : Rat := if q < 0 then 0 else if 1 < q then 1 else q

/-- The wait in seconds before the longest wait is applied. -/
def rawSeconds (p : RetryPolicy) (retry : Nat) (seed : String) : Option Rat := do
  let base ← p.baseSeconds
  match p.strategy with
  | .none => return 0
  | .linear => nearest (base * retry)
  | .exponential => doubled base retry
  | .exponentialJitter =>
    let e ← doubled base retry
    let j := unitClamp p.jitter.toRat
    let steady ← nearest (e * (← nearest (1 - j)))
    let scattered ← nearest ((← nearest (e * j)) * noise seed retry)
    nearest (steady + scattered)

/-- A number of seconds in whole nanoseconds, a half going to the even neighbour. -/
def toDuration (q : Rat) : Duration :=
  ⟨Binary.roundDiv (q.num.toNat * Duration.perSecond) q.den⟩

/-- The wait before a retry. Retries count from one. -/
def delay (p : RetryPolicy) (retry : Nat) (seed : String) : Duration :=
  match p.rawSeconds (max retry 1) seed with
  | some q => if 60 ≤ q then longest else toDuration q
  | none => longest

/-! ### Policies -/

/-- Three retries, the first after half a second. -/
def standard : RetryPolicy := ⟨3, .millis 500, .exponential, .zero double false⟩

/-- A policy without jitter. -/
def plain (maxRetries : Nat) (baseBackoff : Duration) (strategy : Strategy) : RetryPolicy :=
  ⟨maxRetries, baseBackoff, strategy, .zero double false⟩

/-- The jitter brought between 0 and 1; what is no number becomes 0. -/
def clampJitter : Extended → Finite
  | .nan => .zero double false
  | .infinity true => .zero double false
  | .infinity false => ⟨false, Nat.pow 2 52, -52⟩
  | .finite x =>
    if x.toRat < 0 then .zero double false
    else if 1 < x.toRat then ⟨false, Nat.pow 2 52, -52⟩
    else x

/-- The policy with another jitter. -/
def withJitter (p : RetryPolicy) (jitter : Extended) : RetryPolicy :=
  { p with jitter := clampJitter jitter }

open Json

/-- The binary number of a JSON number. -/
def float? : Json → Option Finite
  | .number (.float x) => some x
  | .number (.int n) =>
    match double.ofInt n with
    | .finite x => some x
    | _ => none
  | _ => none

/-- The JSON of a policy. -/
def codec : Codec RetryPolicy where
  format := .open_ "RetryPolicy"
    [("max_retries", .required, .u32), ("base_backoff", .required, Duration.codec.format),
      ("strategy", .required, .choice (Strategy.all.map Strategy.name)),
      ("jitter_factor", .required, .float "f64")]
  encode p := .object
    [("max_retries", .nat p.maxRetries), ("base_backoff", Duration.codec.encode p.baseBackoff),
      ("strategy", .string p.strategy.name), ("jitter_factor", .number (.float p.jitter))]
  decode? j := do
    return {
      maxRetries := ← j.part? "max_retries" nat?
      baseBackoff := ← j.part? "base_backoff" Duration.codec.decode?
      strategy := ← j.part? "strategy" fun s => do Strategy.ofName? (← s.text?)
      jitter := ← j.part? "jitter_factor" float? }

end RetryPolicy

end Conductor
