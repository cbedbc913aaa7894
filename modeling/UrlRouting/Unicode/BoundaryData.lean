import UrlRouting.Unicode.Category

/-!
# Text boundaries, as gaps and lengths

Where the characters, words and sentences of a text end depends on one value per
code point and kind of boundary. The code points with a value are written as
alternating base 36 numbers: how many to skip, how many to take. What follows
from the general categories is left out.
-/

namespace UrlRouting.Unicode

/-- The kinds of boundaries and their values, each with its names. The syllables
without a final consonant stand 28 code points apart. -/
def boundaryValues : List (List String × List (List String × List Category × String)) := [
  (["gcb", "graphemeclusterbreak"], [
    (["cn", "control"], [.cc, .cf],
      "a 1 2 1 16a 6 5z 1 1d 1 ao 2 28 1 4kp 2 q 2 1n 1 185m 9 3b8 1 f 1 i62a 1 1 72 6o 2s0"),
    (["cr"], [], "d 1"),
    (["ex", "extend"], [.mn, .me],
      "1xa 1 o 1 9y 1 o 1 2u 1 o 1 6g 1 1 1 4 2 1 2 9 2 2v 1 o 1 3b 1 f 1 1th 1 u 1 sg 1 5 1 1 1 5
2 2t 1 1z 2 t4 1 36p 2 nxf 1 30 1 gyl 2 3kw 1 38 1 7c 1 e 1 9 1 2o 1 9 1 2 1 1 3 5 1 68 1 c 1 6p 1
7a 1 hl 1 c 1 16r 1 fxq 2 j8z 2 6 6 6tk 5 gx7k 2o"),
    (["l"], [], "3cw 2o u0w t"),
    (["lf"], [], "a 1"),
    (["lv"], [], "xz4 1" ++ String.join (List.replicate 398 " r 1")),
    (["lvt"], [], "xz5 r" ++ String.join (List.replicate 398 " 1 r")),
    (["pp", "prepend"], [],
      "16o 6 5z 1 1d 1 ao 2 28 1 vf 1 1f8u 1 f 1 6s 2 el 1 12l 1 1 1 8y 6 jg 1 cb 1"),
    (["ri", "regionalindicator"], [], "2qcm q"),
    (["sm", "spacingmark"], [.mc],
      "1xa 1 o 1 9y 1 o 1 2u 1 o 1 6g 1 1 1 4 2 1 2 9 2 2v 1 o 1 3b 1 f 1 2b 1 3j 1 af 2 b 1 15 3
2 7 l 1 3 6 2 1 a 3 1a0 1 u 1 mk 1 1 2 5s 1 5 1 1 1 5 2 2t 1 1z 2 3zu 2 nxf 1 30 1 56 1 1 1 kea 1
38 1 7c 1 e 1 9 1 2o 1 9 1 2 1 1 3 5 1 68 1 c 1 6p 1 7a 1 2x 2 em 1 c 1 16r 1 fxq 2 j8z 2 6 6"),
    (["t"], [], "3hk 2g 132j 1d"),
    (["v"], [], "3fk 20 1348 n tjw 1 3 4"),
    (["zwj"], [], "6bx 1")]),
  (["wb", "wordbreak"], [
    (["le", "aletter"], [.lu, .ll, .lt, .lm, .lo, .nl],
      "54 1 eh 4 c 6 6 2 5 7 1 1 1 h gq 3 1 1 17 1 1x r 4 5 7v 1 1dd 1c 1 2 c 7 1m 2 1 1 1 5 1 o 1
1 1 a 1 2 9 1 2 5 1 1 l 4 80 17 k 1 g 6 4 4 3 1 3 2 7 3 4 d c 1 1dd 1g z 1 4 1 ab u 2 5 b 18 4 q
2e 1h 2a 1 1zi 1g 270 2 p 9 7 5 2 3 6 2e 6 3 1 2i 1 4 6o g e8 534 1s g74 1e0 f 9 2 2v 2 gl 5 1 a a
5 2p n 3 1 3 1e 1 1 3 2 2 5 2 1 1 1 o 3 3h 1 fc4 a6 2 2y 1v 1 1 a 1 d 1 5 1 1 1 2 1 2 1 a t2 1m
4m8 r 11 7 hij 5 9 5p2 15 w 2p 37 6pp 4 1 7 1 2 1 83 f 1 t 3 2 1 e 4 8 b0 cac q 6 q 6 q 2uu wyo w
3dq 2 4ge 2 5rl f ha 1wi f2 15u 3t7 5 6ju"),
    (["cr"], [], "d 1"),
    (["dq", "doublequote"], [], "y 1"),
    (["extend"], [.mn, .mc, .me], "6bw 1 185t 2 1c9n 5 gx7k 2o"),
    (["ex", "extendnumlet"], [.pc], "6cv 1"),
    (["fo", "format"], [.cf], "16o 6 5z 1 1d 1 ao 2 28 1 4ko 3 1bjj 1 f 1 i636 2o"),
    (["hl", "hebrewletter"], [], "15c r 4 4 1cfe 1 1 a 1 d 1 5 1 1 1 2 1 2 1 a"),
    (["ka", "katakana"], [],
      "9ip 5 2t 2 3 2j 1 4 6o g 5s 1b 1 2g 14b2 1k ytu 4 1 7 1 2 1 1 7z 3 1e 1 e 4"),
    (["lf"], [], "a 1"),
    (["ml", "midletter"], [], "1m 1 3g 1 jz 1 d3 1 44 1 56a 1 17u3 1 1t 1 5g 1"),
    (["mn", "midnum"], [], "18 1 e 1 n6 1 ei 1 3m 2 2m 1 az 1 4sr 1 17uz 1 3 1 53 1 e 1"),
    (["mb", "midnumlet"], [], "1a 1 6ax 2 a 1 17vx 1 50 1 6 1"),
    (["nl", "newline"], [], "b 2 3c 1 68y 2"),
    (["nu", "numeric"], [.nd], "16o 6 2t 1 35 1 c2 2 28 1 3cn 1 1crm 1 f 1"),
    (["ri", "regionalindicator"], [], "2qcm q"),
    (["sq", "singlequote"], [], "13 1"),
    (["wsegspace"], [.zs], "4g 1 67a 1 13 1"),
    (["zwj"], [], "6bx 1")]),
  (["sb", "sentencebreak"], [
    (["at", "aterm"], [], "1a 1 6b9 1 17vx 1 57 1"),
    (["cl", "close"], [.ps, .pe, .pi, .pf], "y 1 4 1 7qr 6 1b3 2 4 3 2 1 2i5m 3"),
    (["cr"], [], "d 1"),
    (["ex", "extend"], [.mn, .mc, .me], "6bw 2 185s 2 1c9n 5 gx7k 2o"),
    (["fo", "format"], [.cf], "16o 6 5z 1 c2 2 28 1 4kp 2 1bjj 1 f 1 i636 2o"),
    (["lf"], [], "a 1"),
    (["lo", "lower"], [.ll],
      "4q 1 f 1 dx 9 7 2 u 5 45 1 2mt 17 1 4 2ek 1r d 1 y 11 j5 1 d 1 g d 5v g nk q 1hu 2 o4e 2 5u
1 3k 4 3 2 o2 4 9 1 i6u 1 2 3 1 16 1 9 16r9 1q"),
    (["nu", "numeric"], [.nd], "16o 6 2t 2 34 1 c2 2 28 1 3cn 1 1crm 1 f 1"),
    (["le", "oletter"], [.lm, .lo, .nl],
      "4q 1 f 1 dx 9 7 2 u 5 45 1 hk 1 258 17 1 4 2a8 17 2 3 30 1r d 1 y 11 j5 1 d 1 g d 5f w 264
2 o4e 2 5u 1 3k 4 3 2 o2 4 9 1 gms 2 1k0 1 2 3 1 16 1 9 16r9 1q"),
    (["sc", "scontinue"], [],
      "18 2 c 2 n6 1 da 1 4u 2 dm 1 361 1 5 1 1l6 2 358 1 14pa 2 1 2 s 2 t 2 2 2 2 1 a 1 4o 2 c 2
20 1"),
    (["se", "sep"], [], "3p 1 68y 2"),
    (["sp"], [.zs], "9 1 1 2"),
    (["st", "sterm"], [],
      "x 1 t 1 11l 1 43 3 50 1 17 3 6u 1 1p 1 1 1 3 2 85 2 1d0 2 ly 1 4 2 lh 1 5i 2 4d 2 19 1 5 1
8q 2 9u 4 4i 2 a 2 2 2 t 3 57 2 1t 2 qk 2 9 3 2i7 3 8i 1 d 1 m 2 bx 1 n3w 1 7i 2 6b 1 3 1 am 2 2e
2 2n 1 48 2 43 3 40 2 6x 1 g86 1 2 2 1r 2 4p 1 t 1 1t 1 25w 2 zh 5 18 4 59 2 39 4 3j 3 3l 2 6 1 g
2 2g 2 1 2 30 1 8a 2 39 2 ad 2 5 f 2x 2 6x 3 ed 1 1 1 6z 2 2f 2 bo 2 j8 2 22 2 euh 2 3p 1 1t 2 b 1
fd 2 88 1 feu 1 5wo 1"),
    (["up", "upper"], [.lu, .lt], "5n4 17 2 3 ww g na q 2ixs q 6 q 6 q")])]

end UrlRouting.Unicode
