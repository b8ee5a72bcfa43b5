import ApiExposure.Unicode.Runs

/-!
# Directions of writing

Classes of characters by how they behave in text that runs from right to left.
Letters set a direction, digits follow one, and everything else is neutral.
-/

namespace ApiExposure.Unicode

/-- The class of a character in text of both directions. -/
inductive Direction where
  /-- Letters written from left to right. -/
  | left
  /-- Letters written from right to left. -/
  | right
  /-- European digits. -/
  | european
  /-- Arabic digits. -/
  | arabic
  /-- Marks, which take the class of what they combine with. -/
  | mark
  | neutral
  deriving DecidableEq, Repr, Inhabited

/-- The class that a letter of the runs stands for. -/
def Direction.ofWord : List Char → Direction
  | ['l'] => .left
  | ['r'] => .right
  | ['n'] => .european
  | ['h'] => .arabic
  | ['s'] => .mark
  | _ => .neutral

/-- Runs of classes, each by its letter. -/
def directionRuns : Runs Direction := .ofText Direction.ofWord "
5fo 18l o 1c1l 2o 7l eo 2l 1co l 11o 71s 4l 2o 7fl 2o 8bl 8s ffl 7o 2ds r s r 2s r 2s r 9s 36r
2o r 2o r o r 2o bs 30r 15s ah o 2h 3r s 65r 8s o 6s 2r 2s o 4s 2r an 17r s 1er 1ds 59r bs 3ar
9s 2r 4o 3r s 18r 4s r 9s r 3s r 7s 29r 5s 39r 9s 2ar 39s 37l s l s 4l 8s 4l s 3l fs 2l 2s 1dl s
3al s 4l 6s 6l s 14l 4s cl 2o 7l o 2l 5s 39l 2s 3l 1bs 14l 2s 3l s bl 2s 39l s 4l 8s 4l 3s 12l
4s bl 8o l 8s 3al s 2l s l 6s 6l as bl 4s 1cl s 3dl s cl 3s 23l do s 3l s 37l s l 3s 5l 12s al
4s 12l 7o 2l s 3al s fl 9s dl 4s 1al 2s 39l 2s 4l 5s 7l s 14l 4s 1bl s 48l 5s 3l 6s 59l s 2l bs
o 7l 8s 62l s 2l 9s bl 8s 48l 2s 1bl s l s l s 4o 33l es l 5s l 2s 5l 31s 8l s 66l 4s l 6s l 2s
2l 2s 19l 2s 4l 3s 10l 4s dl s 2l 2s 6l s fl s 2bfl 3s 30l 10o 60l o 29al 5o 72l 3s 1dl 2s 1el
es 12l es 37l 7s 8l s 2l bs 7l o l 3s 10l 20o 75l 2s 22l s 76l 3s 4l 2s 9l s 6l 7s 6o 98l 22o
17l 2s 2l 3s 38l s l 9s l s 2l 8s 6l ds 30l 54s 30l s l 5s l s 5l s 28l 9s cl 2s 20l 4s 2l 2s l
3s 38l s l 2s 3l s l 3s 3al 8s 2l 5s 95l 3s l ds l 7s 4l s 6l s 3l 2s c6l 41s 20bl c4o 34s 4ao
3cl 1aco 45l 1ao l 316o l 153o 100l 330o b5l 7o 3l 4s 6l 7o 7fl s 60l 20s 205o 3l 19o 9l 4s 2l o
6l 4o 2l 4o 58l 4s 3l o 5al o c4l 30o 1bd0l 40o 5690l 40o 13dl 3o 5fl 4s o as 3o 1dl 2s 50l 2s
el 23o 65l o 79l s 3l s 4l s 19l 2s l 4o 4s 8l 8o 34l co 44l as 12l 12s dl s 26l 8s 19l bs 2el
3s 30l s 2l 4s 2l 2s 27l s 43l 6s 2l 2s 2l bs 3l s 8l s 2fl s 33l s l 3s 2l 2s 5l 2s l s 2al 2s
8l bs 69l 56o 25l s 2l s 4l 3s 4f2el 94s 11r 25do 25s 2eo 18dr 101l o 3el 4do 3l 40o 2dl 83s 60l
s 1fn 76l as 480l 11fr o e1r fs 28r 8s a5r 6s 4er 7o 1e4r cs 1ah 1fr 5s o f1r 20h 2br 2s 23r 2ao
6s 46r bs 31r 4s 7ar l s 36l fs bl 14o al s 2l 2s al 3s 31l 4s 2l 2s 7l es 30l 3s 24l 5s l 9s
3dl s cl 2s 34l 9s al 4s 2l s 5fl 3s 2l s l 2s 6l s 2l 3fs 5fl s 3l ds 10l 2s 39l 2s 3l s 25l
1as 3bl 7s cl s l s l s el 1fs 38l 8s 2l 3s l s 17l s 54l 6s l s 4l 2s l 2s eel 6s 4l 2s l 2s
1bl 24s 33l 8s 2l s l 2s 1fl 20o 2bl s l s 2l 6s l s 65l 3s 2l 4s l 9s ffl 9s l 2s 100l 2s l s
4l s 90l 8s 4l s 20l 6s 2l 2s 28l 6s 2l 4s 8l 9s l 6s 2l 3s 2el ds l 2s c6l s l 3s l s c9l es
54l 17s l 7s l 2s l 4bs 31l 15s l 9s 40l 3s 2l s l s 15bl 2s bl 2s 34l 8s 2l s l s 17l 56s 25l
2ao 1441l s 6l 19s 2cbel cs 3l 3s 9c0l 5s 3bl 7s 418l s 3fl 4s 4fl o l cs 4cadl 2s f61l 300o 50s
217l 3s 11l 8s 2l 7s 1el 4s 3bl 59o 3s 7bo 40l 60o 6a0l 37s 4l 32s 8l s el s 16l 465s 100l 100s
30l 7s 177l 12s 2cl 4s fl 1d1o 1cl 4s fel 2s f3l s 2l s 7l 2s 5l 9s 102l d0r 52s 22r 7s 5a5r
260o 1dl 3o 3dl 39o 7al da0o f0000l"

/-- The class of a character. -/
def direction (c : Char) : Direction :=
  if isAscii c then
    if c.isAlpha then .left else if c.isDigit then .european else .neutral
  else (directionRuns.get? c).getD .neutral

namespace Direction

/-- Whether a character makes its text one of both directions. -/
def isFromRight (d : Direction) : Bool := d == .right || d == .arabic

/-- Whether characters of these classes, the one in front first, can stand in one label of a text
of both directions. The label begins with a letter, ends in a letter or digit, marks left aside,
and holds none of the other direction; from right to left it has digits of one kind only. -/
def areInOrder : List Direction → Bool
  | [] => true
  | first :: rest =>
    let body := (rest.reverse.dropWhile (· == .mark)).reverse
    let last := body.getLast?.getD first
    match first with
    | .left => (last == .left || last == .european) && body.all (fun d => !d.isFromRight)
    | .right =>
      (last == .right || last == .european || last == .arabic)
        && body.all (· != .left) && !(body.contains .european && body.contains .arabic)
    | _ => false

end Direction

end ApiExposure.Unicode
