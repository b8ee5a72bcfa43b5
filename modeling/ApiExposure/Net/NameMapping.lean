import ApiExposure.Unicode.Composition

/-!
# Mapping of names

Before two names are compared each is mapped: letters lose their case, variants
become the plain character, and what is invisible goes. Many characters cannot
stand in a name at all. The mapped name is taken in its composed form.
-/

namespace ApiExposure.Net

open Unicode

/-- What becomes of a character in a name. -/
inductive NameMapping where
  | kept
  | refused
  | dropped
  /-- Other characters stand for it. -/
  | replaced (text : List Char)
  /-- The character at some distance stands for it. -/
  | shifted (distance : Int)
  /-- In turn, the next character stands for it or it is kept. -/
  | alternating
  deriving DecidableEq, Repr, Inhabited

namespace NameMapping

/-- Characters by their hexadecimal numbers, with points between them. -/
def charsOfWord (word : List Char) : List Char :=
  (word.splitOn '.').map (fun cs =>
    Char.ofNat (Text.valueOf 16 (cs.filterMap Text.hexDigit?)))

/-- The mapping that a word of the runs stands for. -/
def ofWord : List Char → NameMapping
  | ['v'] => .kept
  | ['i'] => .dropped
  | ['p'] => .alternating
  | 'm' :: cs => .replaced (charsOfWord cs)
  | '+' :: cs => .shifted (Text.valueOf 16 (cs.filterMap Text.hexDigit?) : Nat)
  | '-' :: cs => .shifted (-(Text.valueOf 16 (cs.filterMap Text.hexDigit?) : Nat))
  | _ => .refused

/-- Runs of mappings. -/
def runs : Runs NameMapping := .ofText ofWord "
20x m20 7v m20.308 v m61 2v i v m20.304 2v 2-80 m20.301 m3bc 2v m20.327 m31 m6f v m31.2044.34
m31.2044.32 m33.2044.34 v 17+20 v 7+20 21v 30p m69.307 v 2m69.6a 4p v 6p 2m6c.b7 8p m2bc.6e 2ep
mff 6p m73 v m253 4p m254 2p 2+cd 2p v m1dd m259 m25b 2p m260 m263 v m269 m268 2p 2v m26f m272 v
m275 6p m280 2p m283 2v 2p m288 2p 2+d9 4p m292 2p 2v 2p 6v 3m64.17e 3m6c.6a 3m6e.6a 10p v 12p v
3m64.7a 2p m195 m1bf 28p m19e v 12p 6v m2c65 2p m19a m2c66 2v 2p m180 m289 m28c ap 60v m68 m266
m6a m72 m279 m27b m281 m77 m79 1fv m20.306 m20.307 m20.30a m20.328 m20.303 m20.30b 2v m263 m6c
m73 m78 m295 5bv 2-40 v m313 m308.301 m3b9 9v i 20v 4p m2b9 v 2p 2x m20.3b9 3v m3b m3f3 4x
m20.301 m20.308.301 m3ac mb7 3+25 x m3cc x 2+3f v 11+20 x 9+20 23v m3d7 m3b2 m3b8 m3c5 m3cd m3cb
m3c6 m3c0 v 18p m3ba m3c1 m3c3 v m3b8 m3b5 v 2p m3c3 2p v 3-82 10+50 20+20 30v 22p 8v 36p m4cf
ep v 60p x 26+30 2x 2ev m565.582 3v 2x 3v x 37v 8x 1bv 4x 6v 11x 16v x 58v m627.674 m648.674
m6c7.674 m64a.674 64v x 30v 2x 3bv 2x 65v ex 3bv 2x 31v 2x fv x 1cv 2x v x bv 5x 20v 7x 4bv x
75v m915.93c m916.93c m917.93c m91c.93c m921.93c m922.93c m92b.93c m92f.93c 24v x 8v 2x 2v 2x
16v x 7v x v 3x 4v 2x 9v 2x 2v 2x 4v 8x v 4x m9a1.9bc m9a2.9bc x m9af.9bc 4v 2x 19v 2x 3v x 6v
4x 2v 2x 16v x 7v x v ma32.a3c x v ma38.a3c x 2v 2x v x 5v 4x 2v 2x 3v 3x v 7x ma16.a3c ma17.a3c
ma1c.a3c v x ma2b.a3c 7x 11v ax 3v x 9v x 3v x 16v x 7v x 2v x 5v 2x av x 3v x 3v 2x v fx 4v 2x
cv 7x 7v x 3v x 8v 2x 2v 2x 16v x 7v x 2v x 5v 2x 9v 2x 2v 2x 3v 7x 3v 4x mb21.b3c mb22.b3c x 5v
2x 12v ax 2v x 6v 3x 3v x 4v 3x 2v x v x 2v 3x 2v 3x 3v 3x cv 4x 5v 3x 3v x 4v 2x v 6x v ex 15v
5x dv x 3v x 17v x 10v 2x 9v x 3v x 4v 7x 2v x 3v x 2v 2x 4v 2x av 7x 16v x 3v x 17v x av x 5v
2x 9v x 3v x 4v 7x 2v 5x 3v x 4v 2x av x 3v cx dv x 3v x 33v x 3v x 6v 4x 10v 2x 1av x 3v x 12v
3x 18v x 9v x v 2x 7v 3x v 4x 6v x v x 8v 6x av 2x 3v cx 32v me4d.e32 7v 4x 1dv 25x 2v x v x 5v
x 18v x v x cv mecd.eb2 av 2x 5v x v x 7v x av 2x meab.e99 meab.ea1 2v 20x cv mf0b 36v mf42.fb7
4v x 4v mf4c.fb7 4v mf51.fb7 4v mf56.fb7 4v mf5b.fb7 cv mf40.fb5 3v 4x 2v mf71.f72 v mf71.f74
mfb2.f80 mfb2.f71.f80 mfb3.f80 mfb3.f71.f80 7v mf71.f80 11v mf92.fb7 4v x 4v mf9c.fb7 4v
mfa1.fb7 4v mfa6.fb7 4v mfab.fb7 cv mf90.fb5 3v x fv x dv 25x a0v 26+1c60 x m2d27 5x m2d2d 2x
2cv m10dc 62v 2i e8v x 4v 2x 7v x v x 4v 2x 29v x 4v 2x 21v x 4v 2x 7v x v x 4v 2x fv x 39v x 4v
2x 43v 2x 20v 3x 1av 6x 56v 2x 6-8 2x 280v x 1cv 3x 59v 7x 16v 9x 18v 9x 14v cx dv x 3v x 2v cx
34v 2i 28v 2x av 6x av 6x bv 5i av 6x 59v 7x 2bv 5x 46v ax 1fv x cv 4x cv 4x v 3x 2av 2x 5v bx
2cv 4x 1av 6x bv 3x 3ev 2x 41v x 1dv 2x bv 6x av 6x ev 2x 2ev 2x cv 14x 4dv x a6v 8x 3cv 3x fv
3x 33v m432 m434 m43e 2-1842 m442 m44a m463 ma64b 2p 5x 2b-bc0 2x 3-bc0 8v 8x 2bv 5x 2cv m61 me6
m62 v 2-1ccc m1dd 8-1ccc v m6f m223 m70 m72 2-1ccc m77 m61 2-1af4 m1d02 m62 2-1ce4 m259 2-1af0
m67 v m6b m6d m14b m6f m254 2-3e m70 2-1ce3 m1d1d m26f m76 m1d25 3-19ab 2-199a m69 m72 2-1cef
2-19b4 m3c1 2-19a3 dv m43d 22v m252 m63 m255 mf0 m25c m66 m25f m261 m265 3-1b3c m1d7b m29d m26d
m1d85 m29f m271 m270 4-1b3c m278 2-1b31 m1ab 2-1b2d m1d1c 2-1b2e m7a 3-1b2c m3b8 40v 96p 4v
m61.2be m1e61 2v mdf v 60p 8v 8-8 6v 2x 6-8 2x 8v 8-8 8v 8-8 6v 2x 6-8 2x 8v x m1f51 x m1f53 x
m1f55 x m1f57 8v 8-8 v m3ac v m3ad v m3ae v m3af v m3cc v m3cd v m3ce 2x m1f00.3b9 m1f01.3b9
m1f02.3b9 m1f03.3b9 m1f04.3b9 m1f05.3b9 m1f06.3b9 m1f07.3b9 m1f00.3b9 m1f01.3b9 m1f02.3b9
m1f03.3b9 m1f04.3b9 m1f05.3b9 m1f06.3b9 m1f07.3b9 m1f20.3b9 m1f21.3b9 m1f22.3b9 m1f23.3b9
m1f24.3b9 m1f25.3b9 m1f26.3b9 m1f27.3b9 m1f20.3b9 m1f21.3b9 m1f22.3b9 m1f23.3b9 m1f24.3b9
m1f25.3b9 m1f26.3b9 m1f27.3b9 m1f60.3b9 m1f61.3b9 m1f62.3b9 m1f63.3b9 m1f64.3b9 m1f65.3b9
m1f66.3b9 m1f67.3b9 m1f60.3b9 m1f61.3b9 m1f62.3b9 m1f63.3b9 m1f64.3b9 m1f65.3b9 m1f66.3b9
m1f67.3b9 2v m1f70.3b9 m3b1.3b9 m3ac.3b9 x v m1fb6.3b9 2-8 m1f70 m3ac m3b1.3b9 m20.313 m3b9
m20.313 m20.342 m20.308.342 m1f74.3b9 m3b7.3b9 m3ae.3b9 x v m1fc6.3b9 m1f72 m3ad m1f74 m3ae
m3b7.3b9 m20.313.300 m20.313.301 m20.313.342 3v m390 2x 2v 2-8 m1f76 m3af x m20.314.300
m20.314.301 m20.314.342 3v m3b0 4v 2-8 m1f7a m3cd m1fe5 m20.308.300 m20.308.301 m60 2x m1f7c.3b9
m3c9.3b9 m3ce.3b9 x v m1ff6.3b9 m1f78 m3cc m1f7c m3ce m3c9.3b9 m20.301 m20.314 x bm20 i 2v 2x v
m2010 5v m20.333 cv 3x v 7x m20 3v m2032.2032 m2032.2032.2032 v m2035.2035 m2035.2035.2035 4v
m21.21 v m20.305 8v m3f.3f m3f.21 m21.3f dv m2032.2032.2032.2032 7v m20 5i 5x 6i m30 m69 2x
6-2040 m2b m2212 m3d 2-2055 m6e a-2050 m2b m2212 m3d 2-2065 x m61 m65 m6f m78 m259 m68 4-202b
m70 2-2028 3x 8v m72.73 19v ex 21v fx m61.2f.63 m61.2f.73 m63 mb0.63 v m63.2f.6f m63.2f.75 m25b
v mb0.66 2-20a3 3m68 m127 2m69 2m6c v m6e m6e.6f 2v 3-20a9 2m72 2v m73.6d m74.65.6c m74.6d v m7a
v m3c9 v m7a v m6b me5 2-20ca v 2m65 m66 m214e m6d m6f 4-1b65 m69 v m66.61.78 m3c0 2m3b3 m3c0
m2211 4v 2m64 m65 2-20df 6v m31.2044.37 m31.2044.39 m31.2044.31.30 m31.2044.33 m32.2044.33
m31.2044.35 m32.2044.35 m33.2044.35 m34.2044.35 m31.2044.36 m35.2044.36 m31.2044.38 m33.2044.38
m35.2044.38 m37.2044.38 m31.2044 m69 m69.69 m69.69.69 m69.76 m76 m76.69 m76.69.69 m76.69.69.69
m69.78 m78 m78.69 m78.69.69 m6c 2-210a m6d m69 m69.69 m69.69.69 m69.76 m76 m76.69 m76.69.69
m76.69.69.69 m69.78 m78 m78.69 m78.69.69 m6c 2-211a m6d 3v 2p 4v m30.2044.33 2v 4x 9cv
m222b.222b m222b.222b.222b v m222e.222e m222e.222e.222e f8v 2+cdf ffv 16x bv 15x 9-242f m31.30
m31.31 m31.32 m31.33 m31.34 m31.35 m31.36 m31.37 m31.38 m31.39 m32.30 m28.31.29 m28.32.29
m28.33.29 m28.34.29 m28.35.29 m28.36.29 m28.37.29 m28.38.29 m28.39.29 m28.31.30.29 m28.31.31.29
m28.31.32.29 m28.31.33.29 m28.31.34.29 m28.31.35.29 m28.31.36.29 m28.31.37.29 m28.31.38.29
m28.31.39.29 m28.32.30.29 14x m28.61.29 m28.62.29 m28.63.29 m28.64.29 m28.65.29 m28.66.29
m28.67.29 m28.68.29 m28.69.29 m28.6a.29 m28.6b.29 m28.6c.29 m28.6d.29 m28.6e.29 m28.6f.29
m28.70.29 m28.71.29 m28.72.29 m28.73.29 m28.74.29 m28.75.29 m28.76.29 m28.77.29 m28.78.29
m28.79.29 m28.7a.29 1a-2455 1a-246f m30 521v m222b.222b.222b.222b 67v m3a.3a.3d m3d.3d m3d.3d.3d
65v m2add.338 97v 2x 8av 30+30 30v 2p m26b m1d7d m27d 2v 6p m251 m271 m250 m252 v 2p v 2p 5v m6a
m76 2-2a3f 64p 7v 4p 3v 2p 5x 2dv x v 5x v 2x 38v 7x m2d61 v ex 18v 9x 7v x 7v x 7v x 7v x 7v x
7v x 7v x 7v x 7ev 22x 1av x 4v m6bcd 53v m9f9f cx m4e00 m4e28 m4e36 m4e3f m4e59 m4e85 m4e8c
m4ea0 m4eba m513f m5165 m516b m5182 m5196 m51ab m51e0 m51f5 m5200 m529b m52f9 m5315 m531a m5338
m5341 m535c m5369 m5382 m53b6 m53c8 m53e3 m56d7 m571f m58eb m5902 m590a m5915 m5927 m5973 m5b50
m5b80 m5bf8 m5c0f m5c22 m5c38 m5c6e m5c71 m5ddb m5de5 m5df1 m5dfe m5e72 m5e7a m5e7f m5ef4 m5efe
m5f0b m5f13 m5f50 m5f61 m5f73 m5fc3 m6208 m6236 m624b m652f m6534 m6587 m6597 m65a4 m65b9 m65e0
m65e5 m66f0 m6708 m6728 m6b20 m6b62 m6b79 m6bb3 m6bcb m6bd4 m6bdb m6c0f m6c14 m6c34 m706b m722a
m7236 m723b m723f m7247 m7259 m725b m72ac m7384 m7389 m74dc m74e6 m7518 m751f m7528 m7530 m758b
m7592 m7676 m767d m76ae m76bf m76ee m77db m77e2 m77f3 m793a m79b8 m79be m7a74 m7acb m7af9 m7c73
m7cf8 m7f36 m7f51 m7f8a m7fbd m8001 m800c m8012 m8033 m807f m8089 m81e3 m81ea m81f3 m81fc m820c
m821b m821f m826e m8272 m8278 m864d m866b m8840 m884c m8863 m897e m898b m89d2 m8a00 m8c37 m8c46
m8c55 m8c78 m8c9d m8d64 m8d70 m8db3 m8eab m8eca m8f9b m8fb0 m8fb5 m9091 m9149 m91c6 m91cc m91d1
m9577 m9580 m961c m96b6 m96b9 m96e8 m9751 m975e m9762 m9769 m97cb m97ed m97f3 m9801 m98a8 m98db
m98df m9996 m9999 m99ac m9aa8 m9ad8 m9adf m9b25 m9b2f m9b32 m9b3c m9b5a m9ce5 m9e75 m9e7f m9ea5
m9ebb m9ec3 m9ecd m9ed1 m9ef9 m9efd m9f0e m9f13 m9f20 m9f3b m9f4a m9f52 m9f8d m9f9c m9fa0 2ax
m20 v m2e 33v m3012 v m5341 2+230b 5v x 56v 2x 2v m20.3099 m20.309a 2v m3088.308a 5fv m30b3.30c8
5x 2bv x 2-2031 m11aa m1102 2-1f89 3-2034 6-1f8a m111a 3-203b m1121 a-203c 15-1fee i 2-2051
2-1fa0 m11cc m11ce m11d3 m11d7 m11d9 m111c m11dd m11df 2-2054 m1120 2-2052 m1127 m1129 5-204d
m1132 m1136 m1140 m1147 m114c 2-1f91 3-202d 2-2003 m1188 2-1ff9 m1194 m119e m11a1 x 2v m4e00
m4e8c m4e09 m56db m4e0a m4e2d m4e0b m7532 m4e59 m4e19 m4e01 m5929 m5730 m4eba 46v ax 10v
m28.1100.29 m28.1102.29 m28.1103.29 m28.1105.29 m28.1106.29 m28.1107.29 m28.1109.29 m28.110b.29
m28.110c.29 m28.110e.29 m28.110f.29 m28.1110.29 m28.1111.29 m28.1112.29 m28.ac00.29 m28.b098.29
m28.b2e4.29 m28.b77c.29 m28.b9c8.29 m28.bc14.29 m28.c0ac.29 m28.c544.29 m28.c790.29 m28.cc28.29
m28.ce74.29 m28.d0c0.29 m28.d30c.29 m28.d558.29 m28.c8fc.29 m28.c624.c804.29 m28.c624.d6c4.29 x
m28.4e00.29 m28.4e8c.29 m28.4e09.29 m28.56db.29 m28.4e94.29 m28.516d.29 m28.4e03.29 m28.516b.29
m28.4e5d.29 m28.5341.29 m28.6708.29 m28.706b.29 m28.6c34.29 m28.6728.29 m28.91d1.29 m28.571f.29
m28.65e5.29 m28.682a.29 m28.6709.29 m28.793e.29 m28.540d.29 m28.7279.29 m28.8ca1.29 m28.795d.29
m28.52b4.29 m28.4ee3.29 m28.547c.29 m28.5b66.29 m28.76e3.29 m28.4f01.29 m28.8cc7.29 m28.5354.29
m28.796d.29 m28.4f11.29 m28.81ea.29 m28.81f3.29 m554f m5e7c m6587 m7b8f 8v m70.74.65 m32.31
m32.32 m32.33 m32.34 m32.35 m32.36 m32.37 m32.38 m32.39 m33.30 m33.31 m33.32 m33.33 m33.34
m33.35 m1100 2-215f 3-215e m1109 2-215c 5-215b mac00 mb098 mb2e4 mb77c mb9c8 mbc14 mc0ac mc544
mc790 mcc28 mce74 md0c0 md30c md558 mcc38.ace0 mc8fc.c758 mc6b0 v m4e00 m4e8c m4e09 m56db m4e94
m516d m4e03 m516b m4e5d m5341 m6708 m706b m6c34 m6728 m91d1 m571f m65e5 m682a m6709 m793e m540d
m7279 m8ca1 m795d m52b4 m79d8 m7537 m5973 m9069 m512a m5370 m6ce8 m9805 m4f11 m5199 m6b63 m4e0a
m4e2d m4e0b m5de6 m53f3 m533b m5b97 m5b66 m76e3 m4f01 m8cc7 m5354 m591c m33.36 m33.37 m33.38
m33.39 m34.30 m34.31 m34.32 m34.33 m34.34 m34.35 m34.36 m34.37 m34.38 m34.39 m35.30 m31.6708
m32.6708 m33.6708 m34.6708 m35.6708 m36.6708 m37.6708 m38.6708 m39.6708 m31.30.6708 m31.31.6708
m31.32.6708 m68.67 m65.72.67 m65.76 m6c.74.64 m30a2 m30a4 m30a6 m30a8 2-22a m30ad m30af m30b1
m30b3 m30b5 m30b7 m30b9 m30bb m30bd m30bf m30c1 m30c4 m30c6 m30c8 6-21a m30d2 m30d5 m30d8 m30db
5-210 m30e4 m30e6 6-20d 4-20c m4ee4.548c m30a2.30d1.30fc.30c8 m30a2.30eb.30d5.30a1
m30a2.30f3.30da.30a2 m30a2.30fc.30eb m30a4.30cb.30f3.30b0 m30a4.30f3.30c1 m30a6.30a9.30f3
m30a8.30b9.30af.30fc.30c9 m30a8.30fc.30ab.30fc m30aa.30f3.30b9 m30aa.30fc.30e0 m30ab.30a4.30ea
m30ab.30e9.30c3.30c8 m30ab.30ed.30ea.30fc m30ac.30ed.30f3 m30ac.30f3.30de m30ae.30ac
m30ae.30cb.30fc m30ad.30e5.30ea.30fc m30ae.30eb.30c0.30fc m30ad.30ed m30ad.30ed.30b0.30e9.30e0
m30ad.30ed.30e1.30fc.30c8.30eb m30ad.30ed.30ef.30c3.30c8 m30b0.30e9.30e0
m30b0.30e9.30e0.30c8.30f3 m30af.30eb.30bc.30a4.30ed m30af.30ed.30fc.30cd m30b1.30fc.30b9
m30b3.30eb.30ca m30b3.30fc.30dd m30b5.30a4.30af.30eb m30b5.30f3.30c1.30fc.30e0
m30b7.30ea.30f3.30b0 m30bb.30f3.30c1 m30bb.30f3.30c8 m30c0.30fc.30b9 m30c7.30b7 m30c9.30eb
m30c8.30f3 m30ca.30ce m30ce.30c3.30c8 m30cf.30a4.30c4 m30d1.30fc.30bb.30f3.30c8 m30d1.30fc.30c4
m30d0.30fc.30ec.30eb m30d4.30a2.30b9.30c8.30eb m30d4.30af.30eb m30d4.30b3 m30d3.30eb
m30d5.30a1.30e9.30c3.30c9 m30d5.30a3.30fc.30c8 m30d6.30c3.30b7.30a7.30eb m30d5.30e9.30f3
m30d8.30af.30bf.30fc.30eb m30da.30bd m30da.30cb.30d2 m30d8.30eb.30c4 m30da.30f3.30b9
m30da.30fc.30b8 m30d9.30fc.30bf m30dd.30a4.30f3.30c8 m30dc.30eb.30c8 m30db.30f3 m30dd.30f3.30c9
m30db.30fc.30eb m30db.30fc.30f3 m30de.30a4.30af.30ed m30de.30a4.30eb m30de.30c3.30cf
m30de.30eb.30af m30de.30f3.30b7.30e7.30f3 m30df.30af.30ed.30f3 m30df.30ea
m30df.30ea.30d0.30fc.30eb m30e1.30ac m30e1.30ac.30c8.30f3 m30e1.30fc.30c8.30eb m30e4.30fc.30c9
m30e4.30fc.30eb m30e6.30a2.30f3 m30ea.30c3.30c8.30eb m30ea.30e9 m30eb.30d4.30fc
m30eb.30fc.30d6.30eb m30ec.30e0 m30ec.30f3.30c8.30b2.30f3 m30ef.30c3.30c8 m30.70b9 m31.70b9
m32.70b9 m33.70b9 m34.70b9 m35.70b9 m36.70b9 m37.70b9 m38.70b9 m39.70b9 m31.30.70b9 m31.31.70b9
m31.32.70b9 m31.33.70b9 m31.34.70b9 m31.35.70b9 m31.36.70b9 m31.37.70b9 m31.38.70b9 m31.39.70b9
m32.30.70b9 m32.31.70b9 m32.32.70b9 m32.33.70b9 m32.34.70b9 m68.70.61 m64.61 m61.75 m62.61.72
m6f.76 m70.63 m64.6d m64.6d.32 m64.6d.33 m69.75 m5e73.6210 m662d.548c m5927.6b63 m660e.6cbb
m682a.5f0f.4f1a.793e m70.61 m6e.61 m3bc.61 m6d.61 m6b.61 m6b.62 m6d.62 m67.62 m63.61.6c
m6b.63.61.6c m70.66 m6e.66 m3bc.66 m3bc.67 m6d.67 m6b.67 m68.7a m6b.68.7a m6d.68.7a m67.68.7a
m74.68.7a m3bc.6c m6d.6c m64.6c m6b.6c m66.6d m6e.6d m3bc.6d m6d.6d m63.6d m6b.6d m6d.6d.32
m63.6d.32 m6d.32 m6b.6d.32 m6d.6d.33 m63.6d.33 m6d.33 m6b.6d.33 m6d.2215.73 m6d.2215.73.32
m70.61 m6b.70.61 m6d.70.61 m67.70.61 m72.61.64 m72.61.64.2215.73 m72.61.64.2215.73.32 m70.73
m6e.73 m3bc.73 m6d.73 m70.76 m6e.76 m3bc.76 m6d.76 m6b.76 m6d.76 m70.77 m6e.77 m3bc.77 m6d.77
m6b.77 m6d.77 m6b.3c9 m6d.3c9 x m62.71 m63.63 m63.64 m63.2215.6b.67 x m64.62 m67.79 m68.61
m68.70 m69.6e m6b.6b m6b.6d m6b.74 m6c.6d m6c.6e m6c.6f.67 m6c.78 m6d.62 m6d.69.6c m6d.6f.6c
m70.68 x m70.70.6d m70.72 m73.72 m73.76 m77.62 m76.2215.6d m61.2215.6d m31.65e5 m32.65e5
m33.65e5 m34.65e5 m35.65e5 m36.65e5 m37.65e5 m38.65e5 m39.65e5 m31.30.65e5 m31.31.65e5
m31.32.65e5 m31.33.65e5 m31.34.65e5 m31.35.65e5 m31.36.65e5 m31.37.65e5 m31.38.65e5 m31.39.65e5
m32.30.65e5 m32.31.65e5 m32.32.65e5 m32.33.65e5 m32.34.65e5 m32.35.65e5 m32.36.65e5 m32.37.65e5
m32.38.65e5 m32.39.65e5 m33.30.65e5 m33.31.65e5 m67.61.6c 708dv 3x 37v 9x 15cv 14x 2ep 12v 1cp
m44a m44c 5av 8x 22v ep 2v 3ep ma76f 8v 4p m1d79 ap 3v 2p m265 2v 4p 2v 14p m266 m25c m261 m26c
m26a v m29e m287 m29d mab53 10p ma794 m282 m1d8e 4p m264 10p m19b 14x m73 m63 m66 m71 2p v m127
m153 33v 3x av 6x 38v 8x 46v 8x cv 6x 74v bx 1ev 3x 4ev x bv 4x 21v x 37v 9x ev 2x av 2x 67v 18x
1cv ax 6v 2x 6v 2x 6v 9x 7v x 7v x 2cv ma727 mab37 m26b mab52 9v m28d 2v 4x 50-97d0 2ev 2x av 6x
2ba4v cx 17v 4x 31v 2104x m8c48 m66f4 m8eca m8cc8 m6ed1 m4e32 m53e5 2m9f9c m5951 m91d1 m5587
m5948 m61f6 m7669 m7f85 m863f m87ba m88f8 m908f m6a02 m6d1b m70d9 m73de m843d m916a m99f1 m4e82
m5375 m6b04 m721b m862d m9e1e m5d50 m6feb m85cd m8964 m62c9 m81d8 m881f m5eca m6717 m6d6a m72fc
m90ce m4f86 m51b7 m52de m64c4 m6ad3 m7210 m76e7 m8001 m8606 m865c m8def m9732 m9b6f m9dfa m788c
m797f m7da0 m83c9 m9304 m9e7f m8ad6 m58df m5f04 m7c60 m807e m7262 m78ca m8cc2 m96f7 m58d8 m5c62
m6a13 m6dda m6f0f m7d2f m7e37 m964b m52d2 m808b m51dc m51cc m7a1c m7dbe m83f1 m9675 m8b80 m62cf
m6a02 m8afe m4e39 m5be7 m6012 m7387 m7570 m5317 m78fb m4fbf m5fa9 m4e0d m6ccc m6578 m7d22 m53c3
m585e m7701 m8449 m8aaa m6bba m8fb0 m6c88 m62fe m82e5 m63a0 m7565 m4eae m5169 m51c9 m6881 m7ce7
m826f m8ad2 m91cf m52f5 m5442 m5973 m5eec m65c5 m6ffe m792a m95ad m9a6a m9e97 m9ece m529b m66c6
m6b77 m8f62 m5e74 m6190 m6200 m649a m6f23 m7149 m7489 m79ca m7df4 m806f m8f26 m84ee m9023 m934a
m5217 m52a3 m54bd m70c8 m88c2 m8aaa m5ec9 m5ff5 m637b m6bae m7c3e m7375 m4ee4 m56f9 m5be7 m5dba
m601c m73b2 m7469 m7f9a m8046 m9234 m96f6 m9748 m9818 m4f8b m79ae m91b4 m96b8 m60e1 m4e86 m50da
m5bee m5c3f m6599 m6a02 m71ce m7642 m84fc m907c m9f8d m6688 m962e m5289 m677b m67f3 m6d41 m6e9c
m7409 m7559 m786b m7d10 m985e m516d m622e m9678 m502b m5d19 m6dea m8f2a m5f8b m6144 m6817 m7387
m9686 m5229 m540f m5c65 m6613 m674e m68a8 m6ce5 m7406 m75e2 m7f79 m88cf m88e1 m91cc m96e2 m533f
m6eba m541d m71d0 m7498 m85fa m96a3 m9c57 m9e9f m6797 m6dcb m81e8 m7acb m7b20 m7c92 m72c0 m7099
m8b58 m4ec0 m8336 m523a m5207 m5ea6 m62d3 m7cd6 m5b85 m6d1e m66b4 m8f3b m884c m964d m898b m5ed3
m5140 m55c0 2v m585a v m6674 2v m51de m732a m76ca m793c m795e m7965 m798f m9756 m7cbe m7fbd v
m8612 v m8af8 2v m9038 m90fd 3v m98ef m98fc m9928 m9db4 m90de m96b7 m4fae m50e7 m514d m52c9
m52e4 m5351 m559d m5606 m5668 m5840 m58a8 m5c64 m5c6e m6094 m6168 m618e m61f2 m654f m65e2 m6691
m6885 m6d77 m6e1a m6f22 m716e m722b m7422 m7891 m793e m7949 m7948 m7950 m7956 m795d 2-80c5 m7a40
m7a81 m7bc0 m7df4 m7e09 m7e41 m7f72 m8005 m81ed 2m8279 m8457 m8910 m8996 m8b01 m8b39 m8cd3 m8d08
m8fb6 m9038 m96e3 m97ff m983b m6075 m242ee m8218 2x m4e26 m51b5 m5168 m4f80 m5145 m5180 m52c7
m52fa m559d m5555 m5599 m55e2 m585a m58b3 m5944 m5954 m5a62 m5b28 m5ed2 m5ed9 m5f69 m5fad m60d8
m614e m6108 m618e m6160 m61f2 m6234 m63c4 m641c m6452 m6556 m6674 m6717 m671b m6756 m6b79 m6bba
m6d41 m6edb m6ecb m6f22 m701e m716e m77a7 m7235 m72af m732a m7471 m7506 m753b m761d m761f m76ca
m76db m76f4 m774a m7740 m78cc m7ab1 m7bc0 m7c7b m7d5b m7df4 m7f3e m8005 m8352 m83ef m8779 m8941
m8986 m8996 m8abf m8af8 m8acb m8b01 m8afe m8aed m8b39 m8b8a m8d08 m8f38 m9072 m9199 m9276 m967c
m96e3 m9756 m97db m97ff m980b m983b m9b12 m9f9c m2284a m22844 m233d5 m3b9d m4018 m4039 m25249
m25cd0 m27ed3 m9f43 m9f8e 26x m66.66 m66.69 m66.6c m66.66.69 m66.66.6c 2m73.74 cx m574.576
m574.565 m574.56b m57e.576 m574.56d 5x m5d9.5b4 v m5f2.5b7 m5e2 m5d0 2-f54f 3-f549 m5e8 m5ea m2b
m5e9.5c1 m5e9.5c2 m5e9.5bc.5c1 m5e9.5bc.5c2 m5d0.5b7 m5d0.5b8 m5d0.5bc m5d1.5bc m5d2.5bc
m5d3.5bc m5d4.5bc m5d5.5bc m5d6.5bc x m5d8.5bc m5d9.5bc m5da.5bc m5db.5bc m5dc.5bc x m5de.5bc x
m5e0.5bc m5e1.5bc x m5e3.5bc m5e4.5bc x m5e6.5bc m5e7.5bc m5e8.5bc m5e9.5bc m5ea.5bc m5d5.5b9
m5d1.5bf m5db.5bf m5e4.5bf m5d0.5dc 2m671 4m67b 4m67e 4m680 4m67a 4m67f 4m679 4m6a4 4m6a6 4m684
4m683 4m686 4m687 2m68d 2m68c 2m68e 2m688 2m698 2m691 4m6a9 4m6af 4m6b3 4m6b1 2m6ba 4m6bb 2m6c0
4m6c1 4m6be 2m6d2 2m6d3 21v 4m6ad 2m6c7 2m6c6 2m6c8 m6c7.674 2m6cb 2m6c5 2m6c9 4m6d0 2m649
2m626.627 2m626.6d5 2m626.648 2m626.6c7 2m626.6c6 2m626.6c8 3m626.6d0 3m626.649 4m6cc m626.62c
m626.62d m626.645 m626.649 m626.64a m628.62c m628.62d m628.62e m628.645 m628.649 m628.64a
m62a.62c m62a.62d m62a.62e m62a.645 m62a.649 m62a.64a m62b.62c m62b.645 m62b.649 m62b.64a
m62c.62d m62c.645 m62d.62c m62d.645 m62e.62c m62e.62d m62e.645 m633.62c m633.62d m633.62e
m633.645 m635.62d m635.645 m636.62c m636.62d m636.62e m636.645 m637.62d m637.645 m638.645
m639.62c m639.645 m63a.62c m63a.645 m641.62c m641.62d m641.62e m641.645 m641.649 m641.64a
m642.62d m642.645 m642.649 m642.64a m643.627 m643.62c m643.62d m643.62e m643.644 m643.645
m643.649 m643.64a m644.62c m644.62d m644.62e m644.645 m644.649 m644.64a m645.62c m645.62d
m645.62e m645.645 m645.649 m645.64a m646.62c m646.62d m646.62e m646.645 m646.649 m646.64a
m647.62c m647.645 m647.649 m647.64a m64a.62c m64a.62d m64a.62e m64a.645 m64a.649 m64a.64a
m630.670 m631.670 m649.670 m20.64c.651 m20.64d.651 m20.64e.651 m20.64f.651 m20.650.651
m20.651.670 m626.631 m626.632 m626.645 m626.646 m626.649 m626.64a m628.631 m628.632 m628.645
m628.646 m628.649 m628.64a m62a.631 m62a.632 m62a.645 m62a.646 m62a.649 m62a.64a m62b.631
m62b.632 m62b.645 m62b.646 m62b.649 m62b.64a m641.649 m641.64a m642.649 m642.64a m643.627
m643.644 m643.645 m643.649 m643.64a m644.645 m644.649 m644.64a m645.627 m645.645 m646.631
m646.632 m646.645 m646.646 m646.649 m646.64a m649.670 m64a.631 m64a.632 m64a.645 m64a.646
m64a.649 m64a.64a m626.62c m626.62d m626.62e m626.645 m626.647 m628.62c m628.62d m628.62e
m628.645 m628.647 m62a.62c m62a.62d m62a.62e m62a.645 m62a.647 m62b.645 m62c.62d m62c.645
m62d.62c m62d.645 m62e.62c m62e.645 m633.62c m633.62d m633.62e m633.645 m635.62d m635.62e
m635.645 m636.62c m636.62d m636.62e m636.645 m637.62d m638.645 m639.62c m639.645 m63a.62c
m63a.645 m641.62c m641.62d m641.62e m641.645 m642.62d m642.645 m643.62c m643.62d m643.62e
m643.644 m643.645 m644.62c m644.62d m644.62e m644.645 m644.647 m645.62c m645.62d m645.62e
m645.645 m646.62c m646.62d m646.62e m646.645 m646.647 m647.62c m647.645 m647.670 m64a.62c
m64a.62d m64a.62e m64a.645 m64a.647 m626.645 m626.647 m628.645 m628.647 m62a.645 m62a.647
m62b.645 m62b.647 m633.645 m633.647 m634.645 m634.647 m643.644 m643.645 m644.645 m646.645
m646.647 m64a.645 m64a.647 m640.64e.651 m640.64f.651 m640.650.651 m637.649 m637.64a m639.649
m639.64a m63a.649 m63a.64a m633.649 m633.64a m634.649 m634.64a m62d.649 m62d.64a m62c.649
m62c.64a m62e.649 m62e.64a m635.649 m635.64a m636.649 m636.64a m634.62c m634.62d m634.62e
m634.645 m634.631 m633.631 m635.631 m636.631 m637.649 m637.64a m639.649 m639.64a m63a.649
m63a.64a m633.649 m633.64a m634.649 m634.64a m62d.649 m62d.64a m62c.649 m62c.64a m62e.649
m62e.64a m635.649 m635.64a m636.649 m636.64a m634.62c m634.62d m634.62e m634.645 m634.631
m633.631 m635.631 m636.631 m634.62c m634.62d m634.62e m634.645 m633.647 m634.647 m637.645
m633.62c m633.62d m633.62e m634.62c m634.62d m634.62e m637.645 m638.645 2m627.64b 12v
m62a.62c.645 2m62a.62d.62c m62a.62d.645 m62a.62e.645 m62a.645.62c m62a.645.62d m62a.645.62e
2m62c.645.62d m62d.645.64a m62d.645.649 m633.62d.62c m633.62c.62d m633.62c.649 2m633.645.62d
m633.645.62c 2m633.645.645 2m635.62d.62d m635.645.645 2m634.62d.645 m634.62c.64a 2m634.645.62e
2m634.645.645 m636.62d.649 2m636.62e.645 2m637.645.62d m637.645.645 m637.645.64a m639.62c.645
2m639.645.645 m639.645.649 m63a.645.645 m63a.645.64a m63a.645.649 2m641.62e.645 m642.645.62d
m642.645.645 m644.62d.645 m644.62d.64a m644.62d.649 2m644.62c.62c 2m644.62e.645 2m644.645.62d
m645.62d.62c m645.62d.645 m645.62d.64a m645.62c.62d m645.62c.645 m645.62e.62c m645.62e.645 2v
m645.62c.62e m647.645.62c m647.645.645 m646.62d.645 m646.62d.649 2m646.62c.645 m646.62c.649
m646.645.64a m646.645.649 2m64a.645.645 m628.62e.64a m62a.62c.64a m62a.62c.649 m62a.62e.64a
m62a.62e.649 m62a.645.64a m62a.645.649 m62c.645.64a m62c.62d.649 m62c.645.649 m633.62e.649
m635.62d.64a m634.62d.64a m636.62d.64a m644.62c.64a m644.645.64a m64a.62d.64a m64a.62c.64a
m64a.645.64a m645.645.64a m642.645.64a m646.62d.64a m642.645.62d m644.62d.645 m639.645.64a
m643.645.64a m646.62c.62d m645.62e.64a m644.62c.645 m643.645.645 m644.62c.645 m646.62c.62d
m62c.62d.64a m62d.62c.64a m645.62c.64a m641.645.64a m628.62d.64a m643.645.645 m639.62c.645
m635.645.645 m633.62e.64a m646.62c.64a 8v 20x m635.644.6d2 m642.644.6d2 m627.644.644.647
m627.643.628.631 m645.62d.645.62f m635.644.639.645 m631.633.648.644 m639.644.64a.647
m648.633.644.645 m635.644.649
m635.644.649.20.627.644.644.647.20.639.644.64a.647.20.648.633.644.645
m62c.644.20.62c.644.627.644.647 m631.6cc.627.644 3v 10i m2c m3001 x 2-fdd9 m21 m3f 2-ce01 7x 10v
x m2014 m2013 2m5f 2-fe0d m7b m7d 2-ce25 2-ce2b 2-ce33 2-ce37 4-ce35 2v m5b m5d 4m20.305 3m5f
m2c m3001 2x m3b m3a m3f m21 m2014 2-fe31 m7b m7d 2-ce49 m23 m26 2-fe37 m2d m3c m3e m3d x m5c
2-fe45 m40 4x m20.64b m640.64b m20.64c v m20.64d x m20.64e m640.64e m20.64f m640.64f m20.650
m640.650 m20.651 m640.651 m20.652 m640.652 2-f85f 2-f860 2-f861 2-f862 2-f863 3m626 2m627 4m628
2m629 4m62a 4m62b 4m62c 4m62d 4m62e 2m62f 2m630 2m631 2m632 4m633 4m634 4m635 4m636 4m637 4m638
4m639 4m63a 4m641 4m642 4m643 4m644 4m645 4m646 4m647 2m648 2m649 4m64a 2m644.622 2m644.623
2m644.625 2m644.627 2x i x 20-fee0 1a-fec0 24-fee0 2-d5da m2e 2-cf56 m3001 m30fb m30f2 m30a1
m30a3 m30a5 m30a7 m30a9 m30e3 m30e5 m30e7 m30c3 m30fc m30a2 m30a4 m30a6 m30a8 2-cecb m30ad m30af
m30b1 m30b3 m30b5 m30b7 m30b9 m30bb m30bd m30bf m30c1 m30c4 m30c6 m30c8 6-cebb m30d2 m30d5 m30d8
m30db 5-ceb1 m30e4 m30e6 6-ceae m30ef m30f3 2-cf05 i 2-eea1 m11aa m1102 2-edf9 3-eea4 6-edfa
m111a 3-eeab m1121 a-eeac 3x 6-ee61 2x 6-ee63 2x 6-ee65 2x 3-ee67 3x 2-ff3e mac m20.304 ma6 ma5
m20a9 x m2502 4-de59 m25a0 m25cb 11x cv x 1av x 13v x 2v x fv 2x ev 22x 7bv 5x 3v 4x 2dv 3x 58v
x dv 3x v 2fx 2ev 82x 1dv 3x 31v fx 1cv 4x 24v 9x 1ev 5x 2bv 5x 1ev x 25v 4x ev 2ax 28+28 76v 2x
av 6x 24+28 4x 24v 4x 28v 8x 34v bx v b+27 x f+27 x 7+27 x 2+27 x bv x fv x 7v x 2v 3x 34v cx
137v 9x 16v ax 8v 18x v 2-104b1 me6 m299 m253 x m2a3 mab66 m2a5 m2a4 2-10535 m1d91 m258 m25e
m2a9 m264 m262 m260 m29b m127 m29c m267 m284 2-104ef m26c m1df04 ma78e m26e m1df05 m28e m1df06
mf8 2-1052d m71 m27a m1df08 2-1052b m280 m2a8 m2a6 mab67 m2a7 m288 m2c71 x m28f 2-10512 m298
3-105f6 m1df0a m1df1e 45x 6v 2x v x 2cv x 2v 3x v 2x 17v x 48v 8x 9v 30x 13v x 2v 5x 21v 3x 1bv
5x 1bv 26x 38v 4x 14v 2x 32v x 2v 5x 8v x 3v x 1dv 2x 3v 4x av 7x 9v 7x 40v 20x 27v 4x cv 9x 36v
3x 1dv 2x 1bv 5x 1av 7x 4v cx 7v 50x 49v 37x 33+40 dx 33v 7x 2ev 8x av 6x 10v 16+20 3x 1dv 8x 2v
d0x 1fv x 2av x 3v 2x 2v 10x 6v 8x 9v 21x 2ev 8x 2av 16x 1av 26x 1cv 14x 17v 9x 4ev 4x 24v 9x
3ev x 5v dx 19v 7x av 6x 35v x 12v 8x 27v 9x 60v x 14v bx 12v x 2fv 3ex 7v x v x 4v x fv x bv 6x
3bv 5x av 6x 4v x 8v 2x 2v 2x 16v x 7v x 2v x 5v x av 2x 2v 2x 3v 2x v 6x v 5x 7v 2x 7v 3x 5v bx
av x v 2x v x 26v x av x v 2x v x 4v x av x 2v 8x 2v 1dx 5cv x 5v 1ex 48v 8x av a6x 36v 2x 26v
22x 45v bx av 6x dv 13x 3av 6x av 6x 14v 1cx 1bv 2x fv 4x 17v b9x 3cv 64x 20+20 33v cx 8v 2x v
2x 8v x 2v x 1ev x 2v 2x cv 9x av 46x 8v 2x 2ev 2x bv 1bx 48v 8x 53v dx 49v 7x av 56x 8v 58x 22v
ex av 6x 9v x 2dv x ev ax 1dv 3x 20v 2x 16v x ev 49x 7v x 2v x 2cv 3x v x 2v x 9v 8x av 6x 6v x
2v x 25v x 2v x 6v 7x av 6x 2cv 4x av f6x 19v 7x 11v x 29v 3x 1dv 55x v fx 32v dx 39bv 66x 6fv x
5v bx c4v a4cx 63v dx 430v 10x 16v ax f9bv 5x 247v 1ab9x 3av 6c6x 239v 7x 1fv x av 4x 51v x av
6x 1ev 2x 6v ax 46v ax av x 7v x 15v 5x 13v 1b0x 3av c6x 20+20 3bv 5x 19+1b 2x 19v 2cx 4bv 4x
39v 7x 11v 40x 5v bx 7v 9x 1cd6v 29x 20v 61x 73v 21fdx 4v x 7v x 2v x 123v fx v 1dx 3v 2x v ex
4v 8x 18cv 904x 6bv 5x dv 3x 9v 7x av 2x 4v 4i f5cx d6v 1a-1cc75 a-1ccc0 3v 3x 1b4v 6x 17v fx
11v fx 2ev 2x 17v 9x 74v 3cx f6v ax 27v 2x 35v m1d157.1d165 m1d158.1d165 m1d158.1d165.1d16e
m1d158.1d165.1d16f m1d158.1d165.1d170 m1d158.1d165.1d171 m1d158.1d165.1d172 ev 8i 40v
m1d1b9.1d165 m1d1ba.1d165 m1d1b9.1d165.1d16e m1d1ba.1d165.1d16e m1d1b9.1d165.1d16f
m1d1ba.1d165.1d16f 2av 15x 46v 7ax 14v cx 14v cx 57v 9x 19v 87x 1a-1d39f 1a-1d3b9 1a-1d3d3
7-1d3ed x 12-1d3ed 1a-1d407 1a-1d421 m61 x 2-1d43b 2x m67 2x 2-1d43b 2x 4-1d43b x 8-1d43b
4-1d455 x m66 x 7-1d455 x b-1d455 1a-1d46f 1a-1d489 2-1d4a3 x 4-1d4a3 2x 8-1d4a3 x 7-1d4a3 x
1a-1d4bd 2-1d4d7 x 4-1d4d7 x 5-1d4d7 x m6f 3x 7-1d4d7 x 1a-1d4f1 1a-1d50b 1a-1d525 1a-1d53f
1a-1d559 1a-1d573 1a-1d58d 1a-1d5a7 1a-1d5c1 1a-1d5db 1a-1d5f5 1a-1d60f 1a-1d629 m131 m237 2x
11-1d2f7 m3b8 7-1d2f7 m2207 11-1d311 2m3c3 6-1d311 m2202 m3b5 m3b8 m3ba m3c6 m3c1 m3c0 11-1d331
m3b8 7-1d331 m2207 11-1d34b 2m3c3 6-1d34b m2202 m3b5 m3b8 m3ba m3c6 m3c1 m3c0 11-1d36b m3b8
7-1d36b m2207 11-1d385 2m3c3 6-1d385 m2202 m3b5 m3b8 m3ba m3c6 m3c1 m3c0 11-1d3a5 m3b8 7-1d3a5
m2207 11-1d3bf 2m3c3 6-1d3bf m2202 m3b5 m3b8 m3ba m3c6 m3c1 m3c0 11-1d3df m3b8 7-1d3df m2207
11-1d3f9 2m3c3 6-1d3f9 m2202 m3b5 m3b8 m3ba m3c6 m3c1 m3c0 2m3dd 2x a-1d79e a-1d7a8 a-1d7b2
a-1d7bc a-1d7c6 28cv fx 5v x fv 450x 1fv 6x 6v d5x 7v x 11v 2x 7v x 2v x 5v 5x 9-1dc00 3-1dbff
b-1dbfe m44b 2-1dbfb ma689 m4d9 m456 m458 m4e9 m4af m4cf 9-1dc21 2-1dc20 2-1dc1e m441 6-1dc1c
2-1dc1b m491 m456 m455 m45f m4ab ma651 m4b1 21x v 70x 2dv 3x ev 2x av 4x 2v 140x 1fv 11x 3av 5x
v 1d0x 2av d6x 2bv 4x v c0x 1fv x 16v 8x 2v e0x 7v x 4v x 2v x fv x c5v 2x 10v 29x 22+22 2av 4x
av 4x 2v 311x 44v 4cx 3dv c2x 2-1e7d9 m62c m62f x m648 m632 m62d m637 m64a 4-1e7c7 m633 m639
m641 m635 m642 m631 m634 2-1e7eb m62e m630 m636 m638 m63a m66e m6ba m6a1 m66f x m628 m62c x m647
2x m62d x m64a 4-1e7e7 m633 m639 m641 m635 m642 x m634 2-1e80b m62e x m636 x m63a 6x m62c 4x
m62d x m64a x m644 x m646 m633 m639 x m635 m642 x m634 2x m62e x m636 x m63a x m6ba x m66f x
m628 m62c x m647 2x m62d m637 m64a m643 x 2-1e827 m633 m639 m641 m635 m642 x m634 2-1e84b m62e x
m636 m638 m63a m66e x m6a1 x 2-1e859 m62c m62f 2-1e83d m632 m62d m637 m64a x 3-1e847 m633 m639
m641 m635 m642 m631 m634 2-1e86b m62e m630 m636 m638 m63a 5x m628 m62c m62f x m648 m632 m62d
m637 m64a x 3-1e867 m633 m639 m641 m635 m642 m631 m634 2-1e88b m62e m630 m636 m638 m63a 34x 2v
10ex 2cv 4x 64v cx fv 2x fv x fv x 25v bx m30.2c m31.2c m32.2c m33.2c m34.2c m35.2c m36.2c
m37.2c m38.2c m39.2c 5v m28.61.29 m28.62.29 m28.63.29 m28.64.29 m28.65.29 m28.66.29 m28.67.29
m28.68.29 m28.69.29 m28.6a.29 m28.6b.29 m28.6c.29 m28.6d.29 m28.6e.29 m28.6f.29 m28.70.29
m28.71.29 m28.72.29 m28.73.29 m28.74.29 m28.75.29 m28.76.29 m28.77.29 m28.78.29 m28.79.29
m28.7a.29 m3014.73.3015 m63 m72 m63.64 m77.7a v 1a-1f0cf m68.76 m6d.76 m73.64 m73.73 m70.70.76
m77.63 1av m6d.63 m6d.64 m6d.72 23v m64.6a 1dv 38x 1av m307b.304b m30b3.30b3 m30b5 dx m624b
m5b57 m53cc m30c7 m4e8c m591a m89e3 m5929 m4ea4 m6620 m7121 m6599 m524d m5f8c m518d m65b0 m521d
m7d42 m751f m8ca9 m58f0 m5439 m6f14 m6295 m6355 m4e00 m4e09 m904a m5de6 m4e2d m53f3 m6307 m8d70
m6253 m7981 m7a7a m5408 m6e80 m6709 m6708 m7533 m5272 m55b6 m914d 4x m3014.672c.3015
m3014.4e09.3015 m3014.4e8c.3015 m3014.5b89.3015 m3014.70b9.3015 m3014.6253.3015 m3014.76d7.3015
m3014.52dd.3015 m3014.6557.3015 7x m5f97 m53ef ex 6v 9ax 3d9v 3x 11v 3x dv 3x dav 6x cv 4x v fx
cv 4x 38v 8x av 6x 28v 8x 1ev 2x cv 4x 2v ex 9v 27x 158v 8x ev 2x dv 3x bv 3x 39v x v 4x 10v 2x
cv 4x av 7x 93v x 5cv a-1fbc0 v 405x a6e0v 20x 111ev 2x 168ev 2x 1d31v fx 26ev 9a2x m4e3d m4e38
m4e41 m20122 m4f60 m4fae m4fbb m5002 m507a m5099 m50e7 m50cf m349e m2063a m514d m5154 m5164
m5177 m2051c m34b9 m5167 m518d m2054b m5197 m51a4 m4ecc m51ac m51b5 m291df m51f5 m5203 m34df
m523b m5246 m5272 m5277 m3515 m52c7 m52c9 m52e4 m52fa 2-2a524 m5317 m5349 m5351 m535a m5373
m537d 3m537f m20a2c m7070 m53ca m53df m20b63 m53eb m53f1 m5406 m549e m5438 m5448 m5468 m54a2
m54f6 m5510 m5553 m5563 2m5584 m5599 m55ab m55b3 m55c2 m5716 m5606 m5717 m5651 m5674 m5207 m58ee
m57ce m57f4 m580d m578b m5832 m5831 m58ac m214e4 m58f2 m58f7 m5906 m591a m5922 m5962 m216a8
m216ea m59ec m5a1b m5a27 m59d8 m5a66 m36ee m36fc m5b08 2m5b3e m219c8 m5bc3 m5bd8 m5be7 m5bf3
m21b18 m5bff m5c06 m5f53 m5c22 m3781 m5c60 m5c6e m5cc0 m5c8d m21de4 m5d43 m21de6 m5d6e m5d6b
m5d7c 2-29aa0 m382f m5dfd m5e28 m5e3d m5e69 m3862 m22183 m387c m5eb0 m5eb3 m5eb6 m5eca m2a392
m5efe 2m22331 m8201 2m5f22 m38c7 m232b8 m261da m5f62 m5f6b m38e3 m5f9a m5fcd m5fd7 m5ff9 m6081
m393a m391c m6094 m226d4 m60c7 m6148 m614c m614e m614c m617a m618e m61b2 m61a4 m61af m61de m61f2
m61f6 m6210 m621b m625d m62b1 m62d4 m6350 m22b0c m633d m62fc m6368 m6383 m63e4 m22bf1 m6422
m63c5 m63a9 m3a2e m6469 m647e m649d m6477 m3a6c m654f m656c m2300a m65e3 m66f8 m6649 m3b19 m6691
m3b08 m3ae4 m5192 m5195 m6700 m669c m80ad m43d9 m6717 m671b m6721 m675e m6753 m233c3 m3b49 m67fa
m6785 m6852 m6885 m2346d m688e m681f m6914 m3b9d m6942 m69a3 m69ea m6aa8 m236a3 m6adb m3c18
m6b21 m238a7 m6b54 m3c4e m6b72 m6b9f 2-28d3b m23a8d m21d0b m23afa m6c4e m23cbc m6cbf m6ccd m6c67
m6d16 m6d3e m6d77 m6d41 m6d69 m6d78 m6d85 m23d1e m6d34 m6e2f m6e6e m3d33 m6ecb m6ec7 m23ed1
m6df9 m6f6e m23f5e m23f8e m6fc6 m7039 m701e m701b m3d96 m704a m707d m7077 m70ad m20525 m7145
m24263 m719c m243ab m7228 m7235 m7250 m24608 m7280 m7295 m24735 m24814 m737a m738b m3eac m73a5
2m3eb8 m7447 m745c m7471 m7485 m74ca m3f1b m7524 m24c36 m753e m24c92 m7570 m2219f m7610 m24fa1
m24fb8 m25044 m3ffc m4008 m76f4 m250f3 m250f2 m25119 m25133 2-28227 m771f m774a m4039 m778b
m4046 m4096 m2541d m784e m788c m78cc m40e3 m25626 m7956 m2569a m256c5 m798f m79eb m412f m7a40
m7a4a m7a4f m2597c 2m25aa7 m7aee m4202 m25bab m7bc6 m7bc9 m4227 m25c80 m7cd2 m42a0 m7ce8 m7ce3
m7d00 m25f86 m7d63 m4301 m7dc7 m7e02 m7e45 m4334 m26228 m26247 m4359 m262d9 m7f7a m2633e m7f95
m7ffa m8005 m264da m26523 m8060 m265a8 m8070 m2335f m43d5 m80b2 m8103 m440b m813e m5ab5 m267a7
m267b5 m23393 m2339c m8201 m8204 m8f9e m446b m8291 m828b m829d m52b3 m82b1 m82b3 m82bd m82e6
m26b3c m82e5 m831d m8363 m83ad m8323 m83bd m83e7 m8457 m8353 m83ca m83cc m83dc m26c36 m26d6b
m26cd5 m452b m84f1 m84f3 m8516 m273ca m8564 m26f2c m455d m4561 m26fb1 m270d2 m456b m8650 m865c
m8667 m8669 m86a9 m8688 m870e m86e2 m8779 m8728 m876b m8786 m45d7 m87e1 m8801 m45f9 m8860 m8863
m27667 m88d7 m88de m4635 m88fa m34bb m278ae m27966 m46be m46c7 m8aa0 m8aed m8b8a m8c55 m27ca8
m8cab m8cc1 m8d1b m8d77 m27f2f m20804 m8dcb m8dbc m8df0 m208de m8ed4 m8f38 m285d2 m285ed m9094
m90f1 m9111 m2872e m911b m9238 2-26711 m927c m93f9 m9415 m28bfa m958b m4995 m95b7 m28d77 m49e6
m96c3 m5db2 m9723 m29145 m2921a m4a6e m4a76 m97e0 m2940a m4ab2 m29496 2m980b m9829 m295b6 m98e2
m4b33 m9929 m99a7 m99c2 m99fe m4bce m29b30 m9b12 m9c40 m9cfd m4cce m4ced m9d67 m2a0ce m4cf8
m2a105 m2a20e m2a291 m9ebb m4d56 m9ef9 m9efe m9f05 m9f0f m9f16 m9f3b m2a600 5e2x 134bv 5x 212av
acc86x f0i 2fe10x"

/-- What a mapping makes of a character that stands at some place of its run. -/
def apply (c : Char) (place : Nat) : NameMapping → Option (List Char)
  | .kept => some [c]
  | .refused => none
  | .dropped => some []
  | .replaced text => some text
  | .shifted distance => some [Char.ofNat ((c.toNat : Int) + distance).toNat]
  | .alternating => some [if place % 2 = 0 then Char.ofNat (c.toNat + 1) else c]

end NameMapping

/-- What stands for a character in a name, if it can stand in one. -/
def mapped? (c : Char) : Option (List Char) :=
  if isAscii c then some [c.toLower]
  else (NameMapping.runs.at? (c.toNat - firstPoint)).bind (fun r => r.2.apply c r.1)

/-- A name mapped and composed; `none` when it holds a character that cannot stand in a name. -/
def mapName? (name : List Char) : Option (List Char) :=
  (name.mapM mapped?).map (fun texts => composedForm texts.flatten)

/-- Whether a text is as a mapping leaves it. -/
def isMapped (cs : List Char) : Bool :=
  cs.all (fun c => mapped? c == some [c]) && composedForm cs == cs

end ApiExposure.Net
