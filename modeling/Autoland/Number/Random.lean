import Autoland.Number.Scalar
import Autoland.Number.Word

/-! Random words and what is drawn with them. -/

namespace Autoland

/-- A source of random 64-bit words. Given words come first; after them words are mixed from a
counter, and without one they are zero for ever. -/
structure Source where
  pending : List UInt64
  counter : Option UInt64
  /-- How many words were drawn. -/
  used : Nat
  deriving DecidableEq, Repr

namespace Source

def ofWords (words : List UInt64) : Source := ⟨words, none, 0⟩

def ofSeed (seed : UInt64) : Source := ⟨[], some seed, 0⟩

/-- How far the counter moves on from word to word. It is odd, so that the counter takes every
value. -/
def stride : UInt64 := 0x9E3779B97F4A7C15

def mix (word : UInt64) : UInt64 :=
  let word := (word ^^^ (word >>> 30)) * 0xBF58476D1CE4E5B9
  let word := (word ^^^ (word >>> 27)) * 0x94D049BB133111EB
  word ^^^ (word >>> 31)

def next (source : Source) : UInt64 × Source :=
  match source.pending, source.counter with
  | word :: words, _ => (word, { source with pending := words, used := source.used + 1 })
  | [], some counter =>
    let counter := counter + stride
    (mix counter, { source with counter := some counter, used := source.used + 1 })
  | [], none => (0, { source with used := source.used + 1 })

/-- Draws a number from 0 up to 1: the upper 53 bits of a word over `2 ^ 53`. -/
def fraction {ν : Type} [Scalar ν] (source : Source) : ν × Source :=
  let (word, source) := source.next
  (Scalar.ofInt (word.toNat / 2048 : Nat) / Scalar.ofInt 9007199254740992, source)

def width (count : Nat) : Nat := if count < Word.halfLimit then 32 else 64

/-- The number below `count` that a word stands for: the upper half of the product with its lower
bits. Words that would favour some numbers over others stand for none. -/
def choice? (count : Nat) (word : UInt64) : Option Nat :=
  let bits := width count
  let limit := Nat.pow 2 bits
  let zone := count * Nat.pow 2 (bits - 1 - count.log2) - 1
  let product := word.toNat % limit * count
  if product % limit ≤ zone then some (product / limit) else none

def pickWithin (count : Nat) : Nat → Source → Nat × Source
  | 0, source => (0, source)
  | tries + 1, source =>
    let (word, source) := source.next
    match choice? count word with
    | some value => (value, source)
    | none => pickWithin count tries source

/-- Draws a number below `count`, all of them equally likely. After the given words and as many as
there are values of the counter a zero was drawn, which stands for a number. -/
def pick (count : Nat) (source : Source) : Nat × Source :=
  pickWithin count (Word.limit + source.pending.length) source

def choose {α : Type} (items : List α) (source : Source) : Option α × Source :=
  if items.isEmpty then (none, source)
  else
    let (position, source) := source.pick items.length
    (items[position]?, source)

/-- Swaps the items from a position down to the second each with a drawn one, which may be itself
or any before it. -/
def shuffleFrom {α : Type} : Nat → Array α → Source → Array α × Source
  | 0, items, source => (items, source)
  | position + 1, items, source =>
    let (other, source) := source.pick (position + 2)
    shuffleFrom position (items.swapIfInBounds (position + 1) other) source

def shuffle {α : Type} (items : List α) (source : Source) : List α × Source :=
  let (items, source) := shuffleFrom (items.length - 1) items.toArray source
  (items.toList, source)

end Source

end Autoland
