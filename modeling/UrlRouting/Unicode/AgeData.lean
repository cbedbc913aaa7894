/-!
# Ages, as run lengths

Each entry is one digit of base 36 and the number of code points in a row to
which it belongs, from code point 0 on. The digit counts the versions up to the
one in which the code points were assigned; it is 0 if they never were.
-/

namespace UrlRouting.Unicode

/-- The versions, with the spellings by which they are asked for. -/
def ageNames : List (List String) := [
  ["1.1", "v11"], ["2.0", "v20"], ["2.1", "v21"], ["3.0", "v30"], ["3.1", "v31"], ["3.2", "v32"],
  ["4.0", "v40"], ["4.1", "v41"], ["5.0", "v50"], ["5.1", "v51"], ["5.2", "v52"], ["6.0", "v60"],
  ["6.1", "v61"], ["6.2", "v62"], ["6.3", "v63"], ["7.0", "v70"], ["8.0", "v80"], ["9.0", "v90"],
  ["10.0", "v100"], ["11.0", "v110"], ["12.0", "v120"], ["12.1", "v121"], ["13.0", "v130"],
  ["14.0", "v140"], ["15.0", "v150"], ["15.1", "v151"], ["16.0", "v160"], ["17.0", "v170"]]

/-- The age of every code point, run by run. -/
def ageRuns : String :=
  "1dy 44 1u 48 61 71 4i 73 8b 9e 12h 45 72 11b 41 1a 45 7h 11y 49 61 78 85 73 12 41 6d a4 12 a2
02 11 93 11 g1 04 17 01 11 01 1k 01 118 a1 17 41 62 11 41 11 41 11 41 11 41 1i 52 61 75 84 41 1c
41 11u 41 1c 41 115 a1 42 62 44 11h 62 12 62 12 62 91 1s 42 18 82 12 96 6g 94 ag b2 c2 g8 01 112
02 17 k1 113 k1 11 41 02 g2 d1 01 2h 81 2d 1a 91 19 21 83 08 1r 04 k1 15 0b 74 d1 g1 a5 81 11 79
a5 11 f1 o1 81 11 c1 1q a5 1j 43 73 86 c1 1e 62 120 42 15 41 1f 41 1u 72 1a 45 71 4e 01 4u 73 4r
02 73 8u ai 41d 61 0e 91n 02 k3 b1a 02 bf 01 cs 02 c1 01 jb 05 ov s1 o2 05 r1 o8 d1 g1 db g6 h2 o1
i8 na ob k1 if h1 dr g1 b1 13 71 11h c2 1i b1 c1 15 b1 c2 1p a2 c5 g1 b2 92 81 92 g1 13 01 18 02
12 02 1m 01 17 01 11 03 14 02 11 71 17 02 12 02 13 81 08 11 04 12 01 15 02 1l b1 j2 k1 02 71 11 71
01 16 04 12 02 1m 01 17 01 12 01 12 01 12 02 11 01 15 04 12 02 13 03 a1 07 14 01 11 07 1f a1 k1 0a
13 01 17 71 11 01 13 01 1m 01 17 01 12 01 15 02 1a 01 13 01 13 02 11 0f 11 73 02 1a d1 71 07 h1 j6
01 13 01 18 02 12 02 1m 01 17 01 12 01 71 14 02 18 a1 02 12 02 13 07 n1 12 04 12 01 13 a2 02 1b 71
c6 0a 12 01 16 03 13 01 14 03 12 01 11 01 12 03 12 03 13 03 18 81 13 04 15 03 13 01 14 02 a1 06 11
0e 81 1c 78 05 g1 13 k1 18 01 13 01 1n 01 1a g1 15 02 o1 a1 17 01 13 01 14 07 12 01 a2 h1 01 s1 o1
02 12 a2 02 1a 07 l1 a8 i1 g1 12 k1 18 01 13 01 1n 01 1a 01 15 02 72 17 01 13 01 14 07 12 05 s1 o1
11 01 12 92 02 1a 01 92 p1 0c j1 g1 12 n1 18 01 13 01 1n c1 1g c1 j2 a1 16 a1 01 13 01 14 c1 i1 04
i3 11 i7 h1 12 a2 02 1a a6 i3 a7 01 n1 42 01 4i 03 4o 01 49 01 41 02 47 03 41 04 46 01 41 01 48 06
ga 02 43 0c 11m 04 1t 011 12 01 11 01 l1 12 l1 11 01 l1 11 l6 14 l1 17 l1 13 01 11 01 11 l2 12 l1
1d l1 13 02 15 01 11 01 16 p1 01 1a 02 12 d2 0w 220 01 2x 41 a2 04 2r c4 26 41 21 01 2l 43 27 41
21 43 01 4f 01 a1 41 82 a3 b4 c2 011 4y a1 45 a1 42 a1 47 a3 44 a6 4q a1s b4 a2 112 01 d1 05 d1 02
113 62 82 11 81 d3 12i b5 11w b5 12a b6 47 81 41r 81 41 01 44 02 47 01 41 01 44 02 413 81 41 01 44
02 4v 81 41 01 44 02 47 01 41 01 44 02 47 81 47 01 4n 81 4v 81 41 01 44 02 47 81 413 81 4j 02 c2
82 4s 03 8q 06 42d h1 02 h6 02 b1 4hi b9 4t 03 429 g8 07 6d o1 67 o1 09 o1 6n 09 6k 0c 6d 01 63 01
62 0c 42l 71 02 4a 06 7a 06 4f o1 4a 06 42g k1 07 416 a1 05 b1y 0a 7t g2 01 7c 04 7c 04 71 03 716
02 75 0b 816 b2 04 8q 06 8a b1 03 82 7w 8s 02 82 b1r 01 bt 02 bb 06 ba 06 be 02 gf n2 oe sf 02 sc
0k 924 o1 01 r2 919 o2 r1 a17 d3 ac d6 c1g 08 c4 a1k 03 af 03 a1f i9 r2 05 k17 02 k3 d8 08 bz d4
j1 g2 l1 05 730 82g 97 as gf j4 o1 i1 c1 b1 92 14b 21 a4 12i a6 1m 02 16 02 112 02 16 02 18 01 11
01 11 01 11 01 1v 02 11h 01 1f 01 1e 02 16 01 1j 02 13 01 19 01 11b 41 1n 61 46 65 72 82 61 87 65
a1 01 f4 17 61 02 1r 01 85 c8 03 1b 21 31 43 62 84 b3 c1 e1 g3 h1 j1 o1 s1 0e 1i 42 67 81 94 a1 0f
11l 42 71 81 6f 81 92 a1 b3 11c 41 91 a4 b1 h2 04 12j 49 6c 16q 6e 11 41 13d 41 61 4u 61g 72 8b 9c
b1 cb g7 i4 j1 111 42 r3 0m 1b 0l 13v 6k 71 146 6a 128 48 68 1k 72 62 81 41 12e 42 6c 82 6a 78 8b
a1 b2 72 8g 91 aa b3 a4 ba c1 bj c1 b1 c4 bo g1 14 c1 14 c2 1s c1 1z c1 11 c1 14 c3 11 b1 17 c2 17
6e 1v c3 1o c1 1e c1 87 94 d1 a1 d1 c2 6s a4 6g 474 6e8 7e 86 97 a5 94 a15 g3 a5 b5 gq 02 gw s1 n1
gy k3 gc l1 g8 j1 kp h4 kf l1 81b o1 81b o1 9d a3 b1 a3 94 a6 b2 82z b7 d2 05 819 01 d1 05 d1 02
81i d2 07 81 c1 0e c1 8n 09 87 01 87 01 87 01 87 01 87 01 87 01 87 01 87 01 aw 8o a4 82 aj b1 da
g7 i2 j5 k5 l1 n3 ob 0y 4q 01 42h 0c 45y 0q 4c q4 11k 43 63 41 11 01 12c 62 02 16 62 12m 61 05 114
a1 j1 k1 01 12m 01 1g 4o c3 n5 8g ak r2 09 q1 6g 1t 72 01 110 bc 71 6f 1s 72 81 11e 6f 1c 74 11b
m1 13b 74 12r 72 1v 71 452u na 71s 1g4m 8m a8 b8 d1 h9 jl k5 nd o3 4wd 03 4i 62 4g 61 4c 61 43 61
41 09 b1c a8c 0k aw c2 ai d8 as g6 h1 d1 b2g 08 8n 94 a5 92 a2z c2 h1 c2 d2 gc ca d1 g3 i1 k1 g2
h6 k2 l6 o2 l5 n4 r3 s2 o2 s1 o1 s1 o5 r3 0k s1 o3 n2 g1 d2 c1 a5 818 n1 03 ba 06 91k 08 a1x i1 08
ac 06 bs h2 k2 a2c 0b a1 bt 03 b26 01 bb 04 b2 gv 01 a1j 09 ae 02 aa 02 a4 bs g4 b1v 0o b5 dn 0a
c6 02 c6 02 c6 09 c7 01 c7 01 g1c h4 g2 l2 n4 04 h28 b1a 02 ba 06 28mc 0c bn 04 b1d 04 21kw 1566
d2 61n b3 02 82y 012 17 0c 15 05 41 1p 01 15 01 11 01 12 01 12 01 130 cg o1 sg 1a5 og 11s s2 11i
s7 o1 5w 1c 61 71 o2 6g 8a 06 14 a3 g7 h2 1l 62 72 1a 01 1j 01 14 04 13 61 11 01 13r 02 11 01 12m
62 12m 03 16 02 16 02 16 02 13 03 17 01 17 0a 43 31 13 7c 01 7q 01 7j 01 72 01 7f 02 7e 0y 73f 05
73 04 719 03 79 823 g2 i2 01 ac n1 03 g1 01b a1a 03m at 03 a1d 0f gs 04 5v g1 54 09 j3 5r 05 g17
05 7u 01 71 810 04 8e 016 512 72 512 728 02 7a 06 i10 04 i10 04 g14 08 g1g 0b g1 ob 01 of 01 o7 01
o2 01 ob 01 of 01 o7 01 o2 03 r1g 0c g8n 09 gm 0a g8 0o o6 01 o16 01 o9 01x 76 02 71 01 718 01 72
03 71 02 71 bm 01 b9 g1r 08 g9 01c hj 01 h2 05 h5 9q b2 03 91 aq 05 a1 sq 012 d1k 04 h2 d2 hg 02
h1a 84 01 82 05 88 01 83 01 8r k2 02 83 04 89 k1 07 89 07 bw gw 0w g13 04 gc 09 b1i 03 bt 02 br 05
b8 gi 07 g4 0c g7 028 b21 01j h1f 0d h1f 07 h6 k14 08 ka 06 r12 03 rt 08 r2 05s bv 01 n16 01 n3 02
n2 0g r3 s3 08 s9 0x s2 r1 p3 k14 08 k16 0m oq 012 ns 0k ln 09 c26 04 cu o6 09 g1 b1u o1 0a k1 02
dp 07 da 06 d1h 01 de k3 n1 08 g13 09 d21 h4 g1 n2 da g1 h5 01 gk 0b gi 01 g17 i1 p3 01q h7 01 h1
01 h4 01 hf 01 hb 06 g1n 05 ga 06 h1 g3 01 g8 02 g2 02 gm 01 g7 01 g2 01 g5 01 k1 g9 02 g2 02 g3
02 h1 06 g1 05 g7 02 g7 03 g5 0b ra 01 r1 02 r1 01 r12 01 ra 01 r1 02 r1 01 r4 01 ra 01 r2 08 r2
0t i2i n1 i1 01 i1 k1 l1 n2 0u g20 08 ga 04m g1i 02 gi hk 0y g1x 0b ga 06 id 0j d1k l1 o1 06 da 06
rk 0s hq k1 02 hf 04 hg o7 055 k1o 02s g2b 0c g1 n7 02 n1 02 n8 01 n2 01 nu 01 n2 02 nc 09 na 01y
l8 02 l1a 02 lb 0r j20 08 j1g l2 jn k1 j5 0d og g1l 07 pa 02e s8 02g ry 0e ra 06 i9 01 i19 01 ie
0a it 03 iw 02 im 01 ie 021 j7 01 j2 01 j18 03 j1 01 j2 01 j9 08 ja 06 k6 01 k2 01 k11 01 k2 01 k6
07 ka 06 s18 04 sa 06u kp 07 ph 01 p15 03 ps r1 02d n1 0f l1e 0d l1 9of g16 h1 02u 92r gc 01 94 g1
0b h5g 0218 o2r 0d btr p1 l9 pt 0a r32z 05 hg7 05a1 r1m 01c6 cft 07 gv 01 ga 04 g2 o27 01 oa 06 gu
02 g6 0a g1y 0a ga 01 g7 01 gl 05 gj 0c0 r1m 05i k2j 05 sp 02 sp 018 d1x l6 04 l1 d1b l9 07 dh 01s
i1 j1 l2 n1 0b n2 s5 09 i4q5 k5 l6 s8 ikz ndf 015 r1 n9 sm 02p s37 06pp o4 01 o7 01 o2 01 c2 j7x
o4 0f p1 0t l3 02 p1 0e l4 08 jb0 01s4 g2z 05 gd 03 g9 07 ga 02 g8 0318 r6y s3 03 rc4 06 sn 0f sh
0f o1a 02 on 09 o38 01o 56u 0a 513 02 a1 550 hb o2 0l 81y 03e pk 0c kk 0c 72f 09 9i k7 03r 52d 01
51z 01 52 02 51 02 52 02 54 01 5c 01 51 01 54 71 52 01 51t 01 54 02 58 01 57 01 5s 01 54 01 55 01
51 03 57 01 59e 82 02 582 92 02 51e hi4 0f h5 01 hf 0uo ov 06 p6 05x i7 01 ih 02 i7 01 i2 01 i5 05
p1q 0x p1 034 l19 03 le 02 la 04 l2 08w ov 0h l1m 05 l1 0cw p16 05y r17 04 r1 05c sv 01 sm 08 s2
068 o7 01 o4 01 o2 01 of 01 g5h 02 gg 015 i23 l1 04 ia 04 i2 0lt k1w 024 l1p 05e d4 01 dr 01 d2 01
d1 02 d1 01 da 01 d4 01 d1 01 d1 06 d1 04 d1 01 d1 01 d1 01 d3 01 d2 01 d1 02 d1 01 d1 01 d1 01 d1
01 d1 01 d2 01 d1 02 d4 01 d7 01 d4 01 d4 01 d1 01 da 01 dh 05 d3 01 d5 01 dh 01g d2 07i a18 04
a2s 0c cf 02 ce g1 01 cf 01 cf gm 0a bb g2 n3 bv k1 c1 b1 cb b1 c1 b1 c2 b1 c3 b1 c3 b5 c8 b1 c7
b1 ca d2 l1 n3 c9 b1 c1 b2 c2 b1 ca b4 c2 b1 ca ii n1 01k cq b1 c2 0d by c9 i1 04 b9 07 c2 0e j6
04a cx gc h3 c6 g1 c1y g1 h2 ck gc c11 g1 c5 g4 h5 gc ch g7 h8 c1r g1 c1 g1 c52 g1 c4 g2 h1 c1q g2
d4 g7 h5 co gi i1 g15 i1 g2e c5 d1 cg d1 c3 d1 c1 d1 c1 d1 c1 d1 c3 d1 c6 d2 c4 d1 c1 d2 c4 d1 cc
g2 h2 cb g1c c1y ga h1 i2 j2 l1 n2 s1 03 p1 o3 gd 03 g4 i3 j2 k1 l1 n2 03 c38 p3 s4 p5 g2d k4 p1
06 lc 04 o1 0f gc 04 g1k 08 ga 06 g14 08 gu 02 n2 ra 04 r2 0e s9 013 jc n1 l3 h9 i6 j1 i8 j8 i1 j2
ic l1 ic j1 k3 if jd k5 l1 n1 k4 n2 o1 k1 l1 k4 h5 id j6 kb n2 l6 n3 l2 ka l6 h1 k2 l8 n1 o1 l3 jn
kp l2c s4 08 ke 02 l4 n1 p3 l3 o2 03 l3 n4 p2 r1 s1 03 s1 r1 l6 nj o4 p3 n7 o4 p3 r1 p1 n3 o3 r1
01 s1 04 s1 p2 n7 o3 p2 r1 02 r1 o8 p1 r1 s1 04 s1 o7 p2 07 n43 01 n1j r11 na s1 0sj 22 5wyf n7 o2
0w b379 o4 p1 s6 c66 02 h4g2 sc 02 j5rl 0f qha 01wi 5f2 015s 22 n3t7 05 p38g s3be 01478 22 01eke
22 01eke 22 01eke 22 01eke 22 01eke 22 01eke 22 01eke 22 01eke 22 01eke 22 01eke 22 01 51 0u 52o
03k 76o 01e6m 22t4y"

end UrlRouting.Unicode
