import ApiExposure.Unicode.Runs

/-!
# Marks

Characters that combine with the one before them, such as accents and vowel
signs. No ASCII character does.
-/

namespace ApiExposure.Unicode

/-- Runs of marks, written `m`, and of other characters, written `o`. -/
def markRuns : Runs Bool := .ofText (· == ['m']) "
280o 71m 112o 8m 106o 2dm o m o 2m o 2m o 9m 40o bm 30o 15m 10o m 65o 8m o 6m 2o 2m o 4m 23o m
1eo 1dm 59o bm 3ao 9m 9o m 18o 4m o 9m o 3m o 7m 29o 5m 39o 9m 2ao 3am 36o 3m o 12m o fm 2o 2m
1do 4m 37o m o 10m 9o 9m 2o 4m 18o 7m 37o 20m 14o 2m 3o m bo 4m 37o m o 12m 12o 4m 14o bm 37o m
o 21m 3o 4m 1co m 3bo 12m 7o fm 1ao 5m 37o m o 1am ao 4m 1bo 3m 38o m o 1em 6o 4m do 11m 37o 2m
o 10m 9o m ao 4m 1bo 4m 45o 1cm co 2m 3do m 2o bm 8o 8m 62o m 2o 9m bo 8m 48o 2m 1bo m o m o m
4o 2m 31o 14m o 2m 5o 31m 8o m 64o 14m 17o 4m 4o 3m o 3m 2o 7m 3o 4m do cm o m ao 4m 2bfo 3m
3b2o dm 13o 3m 1do em 12o em 36o 1em 9o 3m a5o 2m 22o m 76o 20m d7o 7m 37o 2bm 30o 55m 2fo 11m
26o 9m co 3m 1eo dm 38o 16m 28o 17m 95o 3m o 15m 4o m 6o m 2o 3m c6o 41m 2cfo 34m bebo 4m 8co m
60o 20m 22ao 6m 69o 4m 75d2o 4m o am 20o 2m 50o 2m 110o m 3o m 4o m 17o 5m 4o 4m 50o 2m 32o 1am
12o 12m do m 26o 8m 19o 18m 21o 4m 2fo em 24o m 43o 17m 3o m 8o 4m 2bo 3m 32o m o 3m 2o 2m 5o 2m
o m 29o 5m 5o cm e2o 8m o 4m 4f2eo 94m 26eo 25m 3b8o 83m 60o m 95o am 681o fm 28o 8m a5o 6m 239o
cm 39o 5m 13do 2m 4do 6m 46o bm 31o 4m 7ao 3m 35o fm 29o m 2o 2m ao 4m 2do bm 7o em 30o 3m 24o
fm fo 2m 2co m co 3m 30o em 8o 4m o 2m 5co cm 6o m 2o 3fm 5fo 11m 10o 5m 36o 2m o 12m 7o 6m 5o
1em 38o 19m o m eo 1fm 35o 12m 17o m 51o 14m ebo 12m 1bo 24m 30o 11m 6ao dm 65o 13m fco fm f5o
fm o m o 2m 8do 10m 3o 1cm o am 28o 7m o 4m 8o 9m o bm 2eo 10m c6o 60m 6fo 11m 52o 6em 31o 15m o
9m 3ao em 15bo 4m 9o 2m o m 30o fm 17o 56m 1490o m 6o 19m 2cbeo 12m 9c0o 5m 3bo 7m 418o m o 42m
51o em 4cabo 2m 1261o 50m 215o 5m 3o 16m 2o 7m 1eo 4m 94o 3m 7bbo 37m 4o 32m 8o m eo m 16o 465m
100o 100m 30o 7m 177o 12m 2co 4m 1fco 4m feo 2m f3o m 2o m 7o 2m 5o 9m 1d2o 52m 22o 7m f16b5o"

/-- Whether a character is a mark. -/
def isMark (c : Char) : Bool := !isAscii c && (markRuns.get? c).getD false

end ApiExposure.Unicode
