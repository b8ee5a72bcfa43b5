import ApiExposure.Unicode.Runs

/-!
# Joining letters

In some scripts neighbouring letters join. Which sides of a letter join decides
whether something invisible may stand between two of them.
-/

namespace ApiExposure.Unicode

/-- How a character joins with its neighbours. -/
inductive Joining where
  /-- On both sides. -/
  | both
  /-- With the character after it. -/
  | after
  /-- With the character before it. -/
  | before
  /-- Not seen by its neighbours. -/
  | transparent
  | none
  deriving DecidableEq, Repr, Inhabited

/-- The kind that a letter of the runs stands for. -/
def Joining.ofWord : List Char → Joining
  | ['j'] => .both
  | ['l'] => .after
  | ['r'] => .before
  | ['t'] => .transparent
  | _ => .none

/-- Runs of kinds, each by its letter. -/
def joiningRuns : Runs Joining := .ofText Joining.ofWord "
280o 71t 112o 8t 106o 2dt o t o 2t o 2t o 9t 40o bt 5o j o 4r j r j r 5j 4r dj o 7j r 2j 15t eo
2j t 3r 5o fj 12r 26j r 2j 9r j r j r 2j 2r o r 8t o 6t 2o 2t o 4t 2r ao 3j 2o j 10o r t 3j 5r
4j r 9j r j r j r 2j r 1dt r bj 3r fj 2r 4j r j 2r 3j 2r 6j 26o bt 19o 21j 9t 9o t 18o 4t o 9t o
3t o 7t 10o r 5j 2r j r aj r j 3r 5t 2o j o 4j o r j 1ar 3o j 2o 5j r 8j 9t aj 3r o r 2j 2r 6j r
fj o 39t 37o t o t 4o 8t 4o t 3o ft 2o 2t 1do t 3ao t 4o 6t 6o t 14o 4t 18o 5t 39o 2t 3o 1bt 14o
2t 3o t bo 2t 39o t 4o 8t 4o 3t 12o 4t 14o 8t 3ao t 2o t o 6t 6o at bo 4t 1co t 3do t co 3t 30o
t 3o t 37o t o 3t 5o 12t ao 4t 1bo t 3ao t 2o t 6o t 5o 9t do 4t 1ao 2t 39o 2t 4o 5t 7o t 14o 4t
1bo t 48o 5t 3o 6t 59o t 2o bt 8o 8t 62o t 2o 9t bo 8t 48o 2t 1bo t o t o t 37o et o 5t o 2t 5o
31t 8o t 66o 4t o 6t o 2t 2o 2t 19o 2t 4o 3t 10o 4t do t 2o 2t 6o t fo t 2bfo 3t 3b2o 3t 1do 2t
1eo et 12o et 37o 7t 8o t 2o bt 9o 3t 27o j 18o 60j 5o 2t 22j t 6j 70o 3t 4o 2t 9o t 6o 7t d7o
2t 2o 3t 38o t o 9t o t 2o 8t 6o dt 30o 54t 30o t o 5t o t 5o t 28o 9t co 2t 20o 4t 2o 2t o 3t
38o t o 2t 3o t o 3t 3ao 8t 2o 5t 95o 3t o dt o 7t 4o t 6o t 3o 2t c6o 41t 2cfo 34t bebo 4t 8co
t 60o 20t 22ao 4t 6bo 4t 75d2o 4t o at 20o 2t 50o 2t 110o t 3o t 4o t 19o 2t 5o 4t 10o 32j l 51o
at 12o 12t do t 26o 8t 19o bt 2eo 3t 30o t 2o 4t 2o 2t 27o t 43o 6t 2o 2t 2o bt 3o t 8o t 2fo t
33o t o 3t 2o 2t 5o 2t o t 2ao 2t 8o bt e4o t 2o t 4o 3t 4f2eo 94t 26eo 25t 3b8o 83t 60o t 95o
at 681o ft 28o 8t 80o 5j r o r o 2r 2o l 5r 4j l 5j r 3j r 2o r 6t 4j r 90o j r j 3r 3j r 2j r j
2r j 8r 10o 4r 2j 151o l 21j r j ct 39o 5t 13do 2t 15o r 2j o aj 2ao 6t 30o 3j r 11j o bt 3j r
1bo 4j 2r cj 4t 2ao j o 2j 3r o j 2r 2j r 2j o j 2r j 4o r j 15l 21o t 36o ft 29o t 2o 2t ao 3t
31o 4t 2o 2t 7o et 30o 3t 24o 5t o 9t 3do t co 2t 34o 9t ao 4t 2o t 5fo 3t 2o t o 2t 6o t 2o 3ft
5fo t 3o dt 10o 2t 39o 2t 3o t 25o 1at 3bo 7t co t o t o t eo 1ft 38o 8t 2o 3t o t 17o t 54o 6t
o t 4o 2t o 2t eeo 6t 4o 2t o 2t 1bo 24t 33o 8t 2o t o 2t 6ao t o t 2o 6t o t 65o t o t 2o 4t o
9t ffo 9t o 2t 100o 2t o t 4o t 90o 8t 4o t 20o at 28o 6t 2o 4t 8o 9t o 6t 2o 3t 2eo dt o 2t c6o
t o 3t o t c9o et o t 52o 17t o 7t o 2t o 4bt 31o 15t o 9t 40o 3t 2o t o t 15bo 2t bo 2t 34o 8t
2o t o t 17o 56t 1490o t 6o 19t 2cbeo ct 3o 3t 9c0o 5t 3bo 7t 418o t 3fo 4t 51o ct 4cado 2t
1261o 50t 217o 3t 11o 8t 2o 7t 1eo 4t 94o 3t 7bbo 37t 4o 32t 8o t eo t 16o 465t 100o 100t 30o 7t
177o 12t 2co 4t 1fco 4t feo 2t f3o t 2o t 7o 2t 5o 9t 1d2o 52t 22j ct f16b0o"

/-- How a character joins. -/
def joining (c : Char) : Joining := if isAscii c then .none else (joiningRuns.get? c).getD .none

/-- Whether the first character that is not transparent joins in one of the given ways. -/
def joinsAs (kinds : List Joining) (cs : List Char) : Bool :=
  match cs.dropWhile (fun c => joining c == .transparent) with
  | [] => false
  | c :: _ => kinds.contains (joining c)

end ApiExposure.Unicode
