import ApiExposure.Unicode.Runs

/-!
# Combining classes

Marks of different classes on one character do not interact, so their order has
no meaning and the canonical one goes by class. Class zero are the characters
that start anew; all of ASCII is among them.
-/

namespace ApiExposure.Unicode

/-- The class that a word of the runs stands for: `k` and a hexadecimal number. -/
def classOfWord : List Char → Nat
  | 'k' :: cs => Text.valueOf 16 (cs.filterMap Text.hexDigit?)
  | _ => 0

/-- Runs of classes. -/
def classRuns : Runs Nat := .ofText classOfWord "
280k0 15ke6 ke8 4kdc ke8 kd8 5kdc 2kca 4kdc 2kca bkdc 5k1 4kdc ake6 3kdc 3ke6 3kdc 3ke6 4kdc ke6
ke8 2kdc ke6 ke9 2kea ke9 2kea ke9 eke6 112k0 5ke6 109k0 kdc 4ke6 kdc 3ke6 kde kdc 6ke6 6kdc
2ke6 kdc 2ke6 kde ke4 ke6 ka kb kc kd ke kf k10 k11 k12 2k13 k14 k15 k16 k0 k17 k0 k18 k19 k0
ke6 kdc k0 9k12 40k0 8ke6 k1e k1f k20 30k0 k1b k1c k1d k1e k1f k20 k21 k22 2ke6 2kdc 5ke6 kdc
2ke6 kdc 10k0 k23 65k0 8ke6 k0 4ke6 kdc ke6 2k0 2ke6 k0 kdc 2ke6 kdc 23k0 k24 1ek0 ke6 kdc 2ke6
kdc 2ke6 3kdc ke6 2kdc ke6 kdc 3ke6 kdc ke6 kdc ke6 kdc ke6 kdc 4ke6 9ek0 7ke6 kdc ke6 9k0 kdc
18k0 4ke6 k0 9ke6 k0 3ke6 k0 7ke6 29k0 5kdc 39k0 2ke6 3kdc 4ke6 2ak0 5ke6 5kdc fke6 kdc 2ke6 kdc
2ke6 kdc 3ke6 3kdc k1b k1c k1d 3ke6 kdc 2ke6 2kdc 5ke6 3ck0 k7 10k0 k9 3k0 ke6 kdc 2ke6 67k0 k7
10k0 k9 30k0 3ke6 3bk0 2k7 fk0 4k9 6bk0 k7 10k0 3k9 6ck0 k7 10k0 8k9 78k0 3k9 6ck0 k7 10k0 8k9
k54 2k5b 64k0 k7 10k0 8k9 66k0 2k9 10k0 k9 7ck0 5k9 69k0 2k67 5k9 9k0 4k6b 6ck0 2k76 k9 dk0 4k7a
4ck0 2kdc 1bk0 kdc k0 kdc k0 kd8 37k0 k81 2k82 6k84 4k82 2k0 2k82 2ke6 k9 k0 2ke6 3ek0 kdc 70k0
k7 k0 2k9 52k0 kdc 2cfk0 3ke6 3b4k0 bk9 15k0 k9 9dk0 k9 ak0 3ke6 c9k0 ke4 8fk0 kde ke6 5kdc d7k0
ke6 kdc 47k0 k9 14k0 ake6 kdc 30k0 5ke6 6kdc 2ke6 kdc k0 2kdc 2ke6 2kdc 5ke6 kdc 12ke6 3kdc 6ke6
kdc 4ke6 15kea 34k0 k7 fk0 k9 26k0 ke6 kdc 7ke6 36k0 2k9 3ak0 k7 bk0 ak9 3bk0 4k7 95k0 3ke6 k0
k1 5kdc 2ke6 4kdc ke6 k0 7k1 4k0 kdc 6k0 ke6 3k0 2ke6 c6k0 2ke6 kdc 7ke6 kdc 2ke6 kea kd6 kdc
kca 25ke6 ke8 2ke4 kdc kda ke6 ke9 kdc ke6 2kdc 2cfk0 2ke6 2k1 4ke6 3k1 2ke6 4k0 ke6 3k0 2k1 ke6
kdc ke6 2k1 4kdc 14ke6 bebk0 4ke6 8ck0 k9 60k0 20ke6 22ak0 kda ke4 ke8 kde 2ke0 69k0 4k8 75d2k0
ke6 4k0 ake6 20k0 2ke6 50k0 2ke6 114k0 k9 25k0 4k9 94k0 k9 1bk0 12ke6 39k0 3kdc 25k0 ck9 54k0 k7
ck0 k9 efk0 ke6 k0 2ke6 kdc 2k0 2ke6 5k0 2ke6 k0 ke6 34k0 bk9 eck0 3k9 4f2ek0 94k1a 26ek0 7ke6
7kdc 17ke6 3b8k0 83kdc 60k0 kdc 95k0 ake6 68dk0 kdc k0 ke6 28k0 ke6 k1 5kdc k9 a5k0 ke6 5kdc
239k0 cke6 39k0 5ke6 13dk0 2ke6 4dk0 2kdc k0 3kdc 46k0 2kdc 3ke6 kdc ke6 4kdc 31k0 ke6 kdc ke6
kdc c0k0 k9 29k0 k9 ek0 k9 39k0 k9 k7 45k0 3ke6 30k0 3k9 3dk0 k7 4ck0 k9 9k0 k7 6ak0 k9 k7 b2k0
k7 6k9 4bk0 2k7 10k0 3k9 16k0 1ake6 4ek0 3k9 71k0 k9 3k0 k7 17k0 ke6 63k0 k9 k7 fbk0 k9 k7 7ek0
k9 76k0 k9 k7 73k0 5k9 109k0 k9 k7 102k0 2k9 4k0 k7 9ck0 k9 53k0 k9 12k0 9k9 49k0 k9 1a5k0 k9
102k0 k7 k0 2k9 51k0 k9 1a9k0 2k9 41eck0 k9 9c0k0 5k1 3bk0 7ke6 4b9k0 2k6 4cack0 k1 14c6k0 2kd8
3k1 3k0 ke2 dkd8 8kdc 2k0 5ke6 2kdc 1ek0 4ke6 94k0 3ke6 dbbk0 100ke6 30k0 7ke6 177k0 12ke6 2ck0
4ke6 1fck0 2ke8 kdc ke6 fek0 ke6 kdc f3k0 ke6 2k0 ke6 7k0 2ke6 5k0 9ke6 1d2k0 52kdc 22k0 6ke6 k7
f16b5k0"

/-- The combining class of a character. -/
def combiningClass (c : Char) : Nat := if isAscii c then 0 else (classRuns.get? c).getD 0

/-- The class of the signs that silence the vowel of a consonant. -/
def viramaClass : Nat := 9

/-- Puts a character in front of characters in canonical order. -/
def arrange (c : Char) : List Char → List Char
  | [] => [c]
  | d :: ds =>
    if 0 < combiningClass d ∧ combiningClass d < combiningClass c then d :: arrange c ds
    else c :: d :: ds

/-- The canonical order of characters. -/
def inCanonicalOrder (cs : List Char) : List Char := cs.foldr arrange []

end ApiExposure.Unicode
