/-!
# Scripts, as run lengths

Each entry of `scriptRuns` is the position of a script in `scriptNames`, as two
digits of base 36, and the number of code points in a row that belong to it.
-/

namespace UrlRouting.Unicode

/-- Every script, with the spellings by which it is asked for; code points that belong
to none have one without a name. -/
def scriptNames : List (List String) := [
  ["adlm", "adlam"],
  ["ahom"],
  ["hluw", "anatolianhieroglyphs"],
  ["arab", "arabic"],
  ["armn", "armenian"],
  ["avst", "avestan"],
  ["bali", "balinese"],
  ["bamu", "bamum"],
  ["bass", "bassavah"],
  ["batk", "batak"],
  ["beng", "bengali"],
  ["bhks", "bhaiksuki"],
  ["bopo", "bopomofo"],
  ["brah", "brahmi"],
  ["brai", "braille"],
  ["bugi", "buginese"],
  ["buhd", "buhid"],
  ["cans", "canadianaboriginal"],
  ["cari", "carian"],
  ["aghb", "caucasianalbanian"],
  ["cakm", "chakma"],
  ["cham"],
  ["cher", "cherokee"],
  ["chrs", "chorasmian"],
  ["zyyy", "common"],
  ["copt", "coptic", "qaac"],
  ["xsux", "cuneiform"],
  ["cprt", "cypriot"],
  ["cpmn", "cyprominoan"],
  ["cyrl", "cyrillic"],
  ["dsrt", "deseret"],
  ["deva", "devanagari"],
  ["diak", "divesakuru"],
  ["dogr", "dogra"],
  ["dupl", "duployan"],
  ["egyp", "egyptianhieroglyphs"],
  ["elba", "elbasan"],
  ["elym", "elymaic"],
  ["ethi", "ethiopic"],
  ["geor", "georgian"],
  ["glag", "glagolitic"],
  ["goth", "gothic"],
  ["gran", "grantha"],
  ["grek", "greek"],
  ["gujr", "gujarati"],
  ["gong", "gunjalagondi"],
  ["guru", "gurmukhi"],
  ["hani", "han"],
  ["hang", "hangul"],
  ["rohg", "hanifirohingya"],
  ["hano", "hanunoo"],
  ["hatr", "hatran"],
  ["hebr", "hebrew"],
  ["hira", "hiragana"],
  ["armi", "imperialaramaic"],
  ["zinh", "inherited", "qaai"],
  ["phli", "inscriptionalpahlavi"],
  ["prti", "inscriptionalparthian"],
  ["java", "javanese"],
  ["kthi", "kaithi"],
  ["knda", "kannada"],
  ["kana", "katakana"],
  ["kawi"],
  ["kali", "kayahli"],
  ["khar", "kharoshthi"],
  ["kits", "khitansmallscript"],
  ["khmr", "khmer"],
  ["khoj", "khojki"],
  ["sind", "khudawadi"],
  ["laoo", "lao"],
  ["latn", "latin"],
  ["lepc", "lepcha"],
  ["limb", "limbu"],
  ["lina", "lineara"],
  ["linb", "linearb"],
  ["lisu"],
  ["lyci", "lycian"],
  ["lydi", "lydian"],
  ["mahj", "mahajani"],
  ["maka", "makasar"],
  ["mlym", "malayalam"],
  ["mand", "mandaic"],
  ["mani", "manichaean"],
  ["marc", "marchen"],
  ["gonm", "masaramgondi"],
  ["medf", "medefaidrin"],
  ["mtei", "meeteimayek"],
  ["mend", "mendekikakui"],
  ["merc", "meroiticcursive"],
  ["mero", "meroitichieroglyphs"],
  ["plrd", "miao"],
  ["modi"],
  ["mong", "mongolian"],
  ["mroo", "mro"],
  ["mult", "multani"],
  ["mymr", "myanmar"],
  ["nbat", "nabataean"],
  ["nagm", "nagmundari"],
  ["nand", "nandinagari"],
  ["talu", "newtailue"],
  ["newa"],
  ["nkoo", "nko"],
  ["nshu", "nushu"],
  ["hmnp", "nyiakengpuachuehmong"],
  ["ogam", "ogham"],
  ["olck", "olchiki"],
  ["hung", "oldhungarian"],
  ["ital", "olditalic"],
  ["narb", "oldnortharabian"],
  ["perm", "oldpermic"],
  ["xpeo", "oldpersian"],
  ["sogo", "oldsogdian"],
  ["sarb", "oldsoutharabian"],
  ["orkh", "oldturkic"],
  ["ougr", "olduyghur"],
  ["orya", "oriya"],
  ["osge", "osage"],
  ["osma", "osmanya"],
  ["hmng", "pahawhhmong"],
  ["palm", "palmyrene"],
  ["pauc", "paucinhau"],
  ["phag", "phagspa"],
  ["phnx", "phoenician"],
  ["phlp", "psalterpahlavi"],
  ["rjng", "rejang"],
  ["runr", "runic"],
  ["samr", "samaritan"],
  ["saur", "saurashtra"],
  ["shrd", "sharada"],
  ["shaw", "shavian"],
  ["sidd", "siddham"],
  ["sgnw", "signwriting"],
  ["sinh", "sinhala"],
  ["sogd", "sogdian"],
  ["sora", "sorasompeng"],
  ["soyo", "soyombo"],
  ["sund", "sundanese"],
  ["sylo", "sylotinagri"],
  ["syrc", "syriac"],
  ["tglg", "tagalog"],
  ["tagb", "tagbanwa"],
  ["tale", "taile"],
  ["lana", "taitham"],
  ["tavt", "taiviet"],
  ["takr", "takri"],
  ["taml", "tamil"],
  ["tnsa", "tangsa"],
  ["tang", "tangut"],
  ["telu", "telugu"],
  ["thaa", "thaana"],
  ["thai"],
  ["tibt", "tibetan"],
  ["tfng", "tifinagh"],
  ["tirh", "tirhuta"],
  ["toto"],
  ["ugar", "ugaritic"],
  [],
  ["vaii", "vai"],
  ["vith", "vithkuqi"],
  ["wcho", "wancho"],
  ["wara", "warangciti"],
  ["yezi", "yezidi"],
  ["yiii", "yi"],
  ["zanb", "zanabazarsquare"],
  ["gara", "garay"],
  ["gukh", "gurungkhema"],
  ["krai", "kiratrai"],
  ["onao", "olonal"],
  ["sunu", "sunuwar"],
  ["todr", "todhri"],
  ["tutg", "tulutigalari"],
  ["sidt", "sidetic"],
  ["tols", "tolongsiki"],
  ["berf", "beriaerfe"],
  ["tayo", "taiyo"]]

/-- The script of every code point, run by run. -/
def scriptRuns : String :=
  "0o1t 1yq 0o6 1yq 0o1b 1y1 0of 1y1 0o5 1yn 0o1 1yv 0o1 1ych 0o13 1y5 0o5 0c2 0ok 1j34 174
0o1 173 4c2 174 0o1 171 4c4 171 0o1 171 0o1 173 4c1 171 4c1 17k 4c1 171r 0pe 17g 0t3p 1j2 0t4p 4c1
0412 4c2 041e 4c2 043 4c1 1g1j 4c8 1gr 4c4 1g6 4cb 035 0o1 036 0o1 03e 0o1 033 0o1 03w 0o1 03a 1jb
03q 1j1 0330 0o1 03y 3ue 4c1 3u1o 4c2 3u3 031c 451e 4ce 2t1n 4c2 2t3 3i1a 4c2 3if 4c1 29s 4c2 291
4c1 3ub 4c5 03y 4c5 0323 0o1 03t 0v29 1j4 0vf 0o2 0vq 0a4 4c1 0a8 4c2 0a2 4c2 0am 4c1 0a7 4c1 0a1
4c3 0a4 4c2 0a9 4c2 0a2 4c2 0a4 4c8 0a1 4c4 0a2 4c1 0a5 4c2 0ap 4c2 1a3 4c1 1a6 4c4 1a2 4c2 1am
4c1 1a7 4c1 1a2 4c1 1a2 4c1 1a2 4c2 1a1 4c1 1a5 4c4 1a2 4c2 1a3 4c3 1a1 4c7 1a4 4c1 1a1 4c7 1ah
4ca 183 4c1 189 4c1 183 4c1 18m 4c1 187 4c1 182 4c1 185 4c2 18a 4c1 183 4c1 183 4c2 181 4cf 184
4c2 18c 4c7 187 4c1 373 4c1 378 4c2 372 4c2 37m 4c1 377 4c1 372 4c1 375 4c2 379 4c2 372 4c2 373
4c7 373 4c4 372 4c1 375 4c2 37i 4ca 412 4c1 416 4c3 413 4c1 414 4c3 412 4c1 411 4c1 412 4c3 412
4c3 413 4c3 41c 4c4 415 4c3 413 4c1 414 4c2 411 4c6 411 4ce 41l 4c5 44d 4c1 443 4c1 44n 4c1 44g
4c2 449 4c1 443 4c1 444 4c7 442 4c1 443 4c1 442 4c2 444 4c2 44a 4c7 449 1od 4c1 1o3 4c1 1on 4c1
1oa 4c1 1o5 4c2 1o9 4c1 1o3 4c1 1o4 4c7 1o2 4c5 1o3 4c1 1o4 4c2 1oa 4c1 1o3 4cc 28d 4c1 283 4c1
281f 4c1 283 4c1 286 4c4 28g 4c2 28q 4c1 3o3 4c1 3oi 4c3 3oo 4c1 3o9 4c1 3o1 4c2 3o7 4c3 3o1 4c4
3o6 4c1 3o1 4c1 3o8 4c6 3oa 4c2 3o3 4cc 461m 4c4 0o1 46s 4c11 1x2 4c1 1x1 4c1 1x5 4c1 1xo 4c1 1x1
4c1 1xn 4c2 1x5 4c1 1x1 4c1 1x7 4c1 1xa 4c2 1x4 4cw 4720 4c1 4710 4c4 4713 4c1 4710 4c1 47f 4c1
477 0o4 472 4c11 2n4g 1312 4c1 131 4c5 131 4c2 1317 0o1 134 1c74 1221 4c1 124 4c2 127 4c1 121 4c1
124 4c2 1215 4c1 124 4c2 12x 4c1 124 4c2 127 4c1 121 4c1 124 4c2 12f 4c1 121l 4c1 124 4c2 121v 4c2
12w 4c3 12q 4c6 0m2e 4c2 0m6 4c2 0hhs 2wt 4c3 3h23 0o3 3hb 4c7 3vm 4c9 3v1 1el 0o2 4c9 0gk 4cc 3wd
4c1 3w3 4c1 3w2 4cc 1u2m 4c2 1ua 4c6 1ua 4c6 2k2 0o2 2k1 0o1 2kk 4c6 2k2h 4c7 2k17 4c5 0h1y 4ca
20v 4c1 20c 4c4 20c 4c4 201 4c3 20c 3xu 4c2 3x5 4cb 2r18 4c4 2rq 4c6 2rb 4c3 2r2 1uw 0fs 4c2 0f2
3y1r 4c1 3yt 4c2 3yb 4c6 3ya 4c6 3ye 4c2 1j1a 4c2 1jc 4ck 0625 4c1 061e 3s1s 091g 4c8 094 1z1k 4c3
1zf 4c3 1z3 2x1c 0tb 4c5 1317 4c2 133 3s8 4c8 1j3 0o1 1jd 0o1 1j7 0o4 1j1 0o6 1j1 0o3 1j2 0o1 4c5
1y12 175 0t1 1y1d 175 1y4 175 1yd 0t1 1y1y 171 1j1s 1y74 17m 4c2 176 4c2 1712 4c2 176 4c2 178 4c1
171 4c1 171 4c1 171 4c1 17v 4c2 171h 4c1 17f 4c1 17e 4c2 176 4c1 17j 4c2 173 4c1 179 4c1 0oc 1j2
0o2f 4c1 0ob 1y1 4c2 0ob 1y1 0of 4c1 1yd 4c3 0oy 4ce 1jx 4cf 0o12 171 0o3 1y2 0o6 1y1 0or 1y1 0oh
1y15 0o3 4c4 0oii 4cm 0ob 4cl 0ops 0e74 0ohg 4c2 0o3u 142o 1yw 0p38 4c5 0p7 1312 4c1 131 4c5 131
4c2 481k 4c7 482 4ce 481 12n 4c9 127 4c1 127 4c1 127 4c1 127 4c1 127 4c1 127 4c1 127 4c1 127 4c1
0tw 0o2m 4cy 1bq 4c1 1b2h 4cc 1b5y 4cq 0ol 1b1 0o1 1b1 0op 1b9 1j4 1c2 0o8 1b4 0o4 4c1 1h2e 4c2
1j2 0o2 1h3 0o1 1p2i 0o2 1p3 4c5 0c17 4c1 1c2m 4c1 0og 0cw 0o12 4c9 0o1 1pg 1cv 4c1 0o1s 1cv 0o29
1p1b 0o1 1p2g 0o4o 1b534 0o1s 1bg74 4iwd 4c3 4i1j 4c9 231c 4d8c 4ck 0t2o 072g 4c8 0oy 1y2u 0o3
1y2a 4ck 1yf 3t19 4c3 0oa 4c6 3d1k 4c8 3j1y 4c8 3jc 4c6 0vw 1r1a 0o1 1r1 3g10 4cb 3g1 1ct 4c3 1m26
4c1 0o1 1ma 4c4 1m2 2nv 4c1 0l1j 4c9 0le 4c2 0la 4c2 0l4 2nw 3z1v 4co 3z5 2en 4ca 126 4c2 126 4c2
126 4c9 127 4c1 127 4c1 1y17 0o1 1y9 171 1y4 0o2 4c4 0m28 2e1a 4c2 2ea 4c6 1c8mc 4cc 1cn 4c4 1c1d
4c6is 1ba6 4c2 1b2y 4c12 1y7 4cc 045 4c5 1gq 4c1 1g5 4c1 1g1 4c1 1g2 4c1 1g2 4c1 1ga 03dq 0o2 0340
4cw 03g 1jg 0oa 4c6 1je 0t2 0oz 4c1 0oj 4c1 0o4 4c4 035 4c1 033r 4c2 0o1 4c1 0ow 1yq 0o6 1yq 0ob
1pa 0o1 1p19 0o2 1cv 4c3 1c6 4c2 1c6 4c2 1c6 4c2 1c3 4c3 0o7 4c1 0o7 4ca 0o5 4c2 22c 4c1 22q 4c1
22j 4c1 222 4c1 22f 4c2 22e 4cy 223f 4c5 0o3 4c4 0o19 4c3 0o9 1727 4c1 0od 4c3 171 4c1b 0o19 1j1
4c3m 24t 4c3 0i1d 4cf 1j1 0or 4c4 2z10 4c9 2z3 15r 4c5 3117 4c5 4bu 4c1 4b1 3210 4c4 32e 4c16 0u28
3l1c 39u 4c2 39a 4c6 3810 4c4 3810 4c4 1014 4c8 0j1g 4cb 0j1 4eb 4c1 4ef 4c1 4e7 4c1 4e2 4c1 4eb
4c1 4ef 4c1 4e7 4c1 4e2 4c3 4p1g 4cc 218n 4c9 21m 4ca 218 4co 1y6 4c1 1y16 4c1 1y9 4c1x 0r6 4c2
0r1 4c1 0r18 4c1 0r2 4c3 0r1 4c2 0r1 1im 4c1 1i9 3bw 2ov 4c8 2o9 4c1c 1fj 4c1 1f2 4c5 1f5 3es 4c3
3e1 25q 4c5 251 4rq 4c12 2hw 2go 4c4 2gk 4c2 2g1a 1s4 4c1 1s2 4c5 1s8 4c1 1s3 4c1 1st 4c2 1s3 4c4
1sa 4c7 1s9 4c7 34w 30w 4cw 2a13 4c4 2ac 4c9 051i 4c3 057 1lm 4c2 1l8 1kj 4c5 1k8 3fi 4c7 3f4 4cc
3f7 4c28 3521 4c1j 2y1f 4cd 2y1f 4c7 2y6 1d14 4c8 1da 4c6 4k12 4c3 4kt 4c8 4k2 4c5s 03v 4c1 4h16
4c1 4h3 4c2 4h2 4cg 036 4c8 039 4cx 036 3314 4c8 3p16 4cm 36q 4c12 0ns 4ck 11n 4c9 0d26 4c4 0d10
4c9 0d1 1n1v 4ca 1n1 4c2 3qp 4c7 3qa 4c6 0k1h 4c1 0ki 4c8 2613 4c9 3k2o 4c1 3ok 4cb 1vi 4c1 1v1b
4c1q 2m7 4c1 2m1 4c1 2m4 4c1 2mf 4c1 2mb 4c6 1w1n 4c5 1wa 4c6 164 4c1 168 4c2 162 4c2 16m 4c1 167
4c1 162 4c1 165 4c1 1j1 169 4c2 162 4c2 163 4c2 161 4c6 161 4c5 167 4c2 167 4c3 165 4cb 4qa 4c1
4q1 4c2 4q1 4c1 4q12 4c1 4qa 4c1 4q1 4c2 4q1 4c1 4q4 4c1 4qa 4c1 4q2 4c8 4q2 4ct 2s2k 4c1 2s5 4cu
4920 4c8 49a 4c4m 3m1i 4c2 3m12 4cy 2j1x 4cb 2ja 4c6 2kd 4cj 401m 4c6 40a 4c6 2nk 4cs 01r 4c2 01f
4c4 01n 4c55 0x1o 4c2s 4g2b 4cc 4g1 0w7 4c2 0w1 4c2 0w8 4c1 0w2 4c1 0wu 4c1 0w2 4c2 0wc 4c9 0wa
4c1y 2q8 4c2 2q1a 4c2 2qb 4cr 4j20 4c8 3r2b 4cd 0hg 3c1l 4c7 0va 4c2e 3k8 4c2g 4oy 4ce 4oa 4c6 0b9
4c1 0b19 4c1 0be 4ca 0bt 4c3 2bw 4c2 2bm 4c1 2be 4c21 2c7 4c1 2c2 4c1 2c18 4c3 2c1 4c1 2c2 4c1 2c9
4c8 2ca 4c6 196 4c1 192 4c1 1911 4c1 192 4c1 196 4c7 19a 4c6 4s18 4c4 4sa 4c6u 27p 4c7 1qh 4c1
1q15 4c3 1qt 4c2d 231 4cf 411e 4cd 411 0qpm 4c2u 0q33 4c1 0q5 4cb 0q5g 4c218 0s2r 4cd 0zuu 4ca
0z32z 4c5 02g7 4c5a1 4l1m 4c1c6 07ft 4c7 2lv 4c1 2la 4c4 2l2 4227 4c1 42a 4c6 08u 4c2 086 4ca 3a1y
4ca 3aa 4c1 3a7 4c1 3al 4c5 3aj 4cc0 4m1m 4c5i 2d2j 4c5 4tp 4c2 4tp 4c18 2i23 4c4 2i1l 4c7 2ih
4c1s 431 2u1 1b2 1t1 4cb 1b7 4c9 435c0 1td2 4c15 1t1 43v 4c2p 4337 4c6pp 1p4 4c1 1p7 4c1 1p2 4c1
1p1 1h7z 1p3 4cf 1h1 4ct 1h3 4c2 1p1 4ce 1p4 4c8 2ub0 4c1s4 0y2z 4c5 0yd 4c3 0y9 4c7 0ya 4c2 0y4
0o4 4c318 0o71 4c3 0oc4 4c6 0on 4cf 0oh 4cf 1j1a 4c2 1jn 4c9 0o38 4c1o 0o6u 4ca 0o13 4c2 0o1q 1j3
0oh 1j8 0o2 1j7 0ou 1j4 0o1p 4cl 171y 4c3e 0ok 4cc 0ok 4cc 0o2f 4c9 0op 4c3r 0o2d 4c1 0o1z 4c1 0o2
4c2 0o1 4c2 0o2 4c2 0o4 4c1 0oc 4c1 0o1 4c1 0o7 4c1 0o1t 4c1 0o4 4c2 0o8 4c1 0o7 4c1 0os 4c1 0o4
4c1 0o5 4c1 0o1 4c3 0o7 4c1 0o9g 4c2 0o84 4c2 0o1e 3ni4 4cf 3n5 4c1 3nf 4cuo 1yv 4c6 1y6 4c5x 147
4c1 14h 4c2 147 4c1 142 4c1 145 4c5 0t1q 4cx 0t1 4c34 2v19 4c3 2ve 4c2 2va 4c4 2v2 4c8w 4av 4ch
4f1m 4c5 4f1 4ccw 2p16 4c5y 4n17 4c4 4n1 4c5c 4uv 4c1 4um 4c8 4u2 4c68 127 4c1 124 4c1 122 4c1 12f
4c1 2f5h 4c2 2fg 4c15 0024 4c4 00a 4c4 002 4clt 0o1w 4c24 0o1p 4c5e 034 4c1 03r 4c1 032 4c1 031
4c2 031 4c1 03a 4c1 034 4c1 031 4c1 031 4c6 031 4c4 031 4c1 031 4c1 031 4c1 033 4c1 032 4c1 031
4c2 031 4c1 031 4c1 031 4c1 031 4c1 031 4c1 032 4c1 031 4c2 034 4c1 037 4c1 034 4c1 034 4c1 031
4c1 03a 4c1 03h 4c5 033 4c1 035 4c1 03h 4c1g 032 4c7i 0o18 4c4 0o2s 4cc 0of 4c2 0of 4c1 0of 4c1
0o11 4ca 0o4u 4c1k 0oq 1h1 0o2 4cd 0o18 4c4 0o9 4c7 0o2 4ce 0o6 4c4a 0ord 4c3 0oh 4c3 0od 4c3 0o62
4c6 0oc 4c4 0o1 4cf 0oc 4c4 0o1k 4c8 0oa 4c6 0o14 4c8 0ou 4c2 0oc 4c4 0o2 4ce 0o9 4c13 0o9k 4c8
0oe 4c2 0od 4c3 0ob 4c3 0o1l 4c1 0o1 4c4 0og 4c2 0oc 4c4 0oa 4c7 0o43 4c1 0o2v 4csl 1bwyo 4cw
1b3dq 4c2 1b4ge 4c2 1b5rl 4cf 1bha 4c1wi 1bf2 4c15u 1b3t7 4c5 1b6ju 4cf5vr 0o1 4cu 0o2o 4c3k 1j6o
4c47bk"

/-- Scripts by position, each with the code points for which it matters whether only
the script or also the scripts that use them are asked for, as gaps and lengths. -/
def extensionChanges : List (Nat × String) := [
  (0, "17j 1 w 1 55a 1 2r5 1"),
  (3, "170 1 e 1 3 1 w 1 a b q 1 53y 1 2r5 1 14vw 2 140 s"),
  (4, "lk 1"),
  (5, "53 1 8zc 2"),
  (10, "jg 1 1as 2 h 2 3u2 1 1 1 2 2 1 1 8 1 8 1 2 1 4 1 2 3 rnd 1"),
  (12, "jr 1 1 3 d 1 8x3 3 4 a 1 d a 4 2 1 6 1 5f 1 14jt 2 7u 5"),
  (15, "xjj 1"),
  (16, "4l1 2"),
  (18, "53 1 68y 1 2 1 2qb 1"),
  (19, "lg 1 18 1 18 1"),
  (20, "1ye a 18w a"),
  (22, "lc 3 1 1 6 2 m 2 b 2"),
  (24, "53 1 ec 1 a 1 1 3 1 1 9 1 1 1 4a 1 if 1 e 1 3 1 w 1 mb 2 1hx 1 167 3 1z 2 5n 2 1 1 y5 1
d 1 7 4 1 6 1 3 2 1 ms 1 v 1 a 1 2 1 2pl 1 o 2 a 1 4 1 1 1 bw g 1 3 2 1 1 a 1 d g 6 1 1 4 4 2j 2 3
1 2i 2 43 g w 12 9 1 1c 14 1k 1d f c 1f 1 2g p a 5 2o v mpt 8 88 a 6s 1 4g 1 gha 2 79 2 7u 5 a 1
19 2 9s 3 4 19 3 9 bl r 10o4 4 4ho i 63i 2"),
  (25, "53 1 g8 1 3 2 1 1 30 2 8f5 1 1614 s"),
  (27, "1erk 3 4 19 3 9"),
  (28, "1erk 2"),
  (29, "jg 1 1v 3 1 1 1 1 1 1 2 1 5 1 ab 2 50x 1 37u 1"),
  (31, "jg 1 1as 2 h 2 3u2 13 1 2 s6 1 qpr a"),
  (33, "1us c vcw a"),
  (34, "53 1 gf 2 1 1 o 2 8if 1 26oz 4"),
  (36, "53 1 gd 1"),
  (38, "lq 1"),
  (39, "53 1 y9 1 29d 1 31a 1 2qe 1"),
  (40, "53 1 gb 1 1 1 am 1 2 1 75 1 29d 1 31a 1 2qw 1 nqj 1"),
  (41, "53 1 gc 2 2 1 14 1"),
  (42, "1u9 2 h 2 hs e 3bw 1 1 2 u 3 3 2 s6 1 1buy 1 2hg 2 1 1"),
  (43, "53 1 g8 2 2 1 1 1 1 1 a 1 1a 1 2 1 1a 1 56z 2 ij 1"),
  (44, "1u9 2 h 2 vd6 a"),
  (45, "53 1 1po 2"),
  (46, "1u9 2 h 2 vd6 a"),
  (47, "53 1 9bs g 1 3 2 1 1 a 1 d a 4 2 1 6 1 4 4 57 1 44 g w 12 9 1 1c 14 1k 1d f c 1f 1 2g p
a 5 2o v mpt 8 h8d 2 7u 5 15ve i 63i 2"),
  (48, "9hd 3 4 a 1 d g 1 6 1 5f 1 14jt 2 7u 5"),
  (49, "170 1 e 1 3 1 w 1 43 1"),
  (50, "4l1 2"),
  (52, "lj 2"),
  (53, "9hd 3 4 a 1 d g 6 1 1 4 2 2j 4 3 1 2i 2 14js 2 7u 5 a 1 19 2"),
  (55, "lc f 1 2 1 1 f 3 7 2 1 2 g 1 2 1 i 1 5 1 4 d 7p 2 ck b q 1 kg 2 3ul 3 1 d 1 7 4 1 6 1 3
2 5i 2 1i 1 1 1 l1 1 309 4 2z 2 15j9 1 38a 1"),
  (58, "xjj 1"),
  (59, "1uu a 79d 1 o3i a"),
  (60, "1u9 2 h 2 3u2 1 1 2 6 1 n 1 1 1 ri3 6"),
  (61, "lh 1 t 1 8v1 3 4 a 1 d g 6 1 1 4 2 2j 4 3 1 2i 2 14js 2 7u 5 a 1 19 2"),
  (63, "xf2 1"),
  (67, "25i a v28 a"),
  (68, "1us 2 vd6 a"),
  (70, "53 1 ec 1 a 1 1 3 1 1 9 1 1 1 12 f 1 2 1 1 f 3 7 2 1 2 12 1 5 1 4 d 7p 2 y2 2 1ig 1 2kc
1 fq 1 5c 1 2li 1 nvs 8 fa 1"),
  (72, "1ut 1"),
  (73, "1err 19"),
  (74, "1erk 3 4 19 3 9"),
  (75, "jg 1 g 1 8xo 2"),
  (76, "6e2 1"),
  (77, "53 1 8zd 1"),
  (78, "53 1 1po c vcw a"),
  (80, "1u9 2 h 2 3uc 1 n 1 ri5 3"),
  (81, "18g 1"),
  (82, "18g 1"),
  (84, "1us 2"),
  (89, "6e5 1"),
  (91, "x80 a"),
  (92, "4qq 2 1 1 1m1 1 34h 2 5 4"),
  (94, "21y a"),
  (95, "xf2 1"),
  (98, "1u9 1 i 2 ow a 35l 1 8 1 7 1 rhx 6"),
  (100, "1u9 2 3uq 1 1 2 9 1 6 1 1 1 1 1"),
  (101, "170 1 e 1 3 1 1cta 2"),
  (106, "6e2 1 2 1 2qb 1 f 1"),
  (109, "53 1 g8 1 5 3 a 1 a7 1"),
  (113, "6e2 1 2qd 1"),
  (114, "18g 1 1fht 1"),
  (115, "1u9 2 h 2 3uc 1 n 1"),
  (116, "ld 1 2 1 6 1 24 1"),
  (121, "4qq 2 1 1 1m1 1 34i 1"),
  (123, "18g 1"),
  (125, "4iz 3"),
  (126, "94h 1"),
  (128, "1u9 1 3ut 1 1 1 2 2 2 1 9 1 2 1 ria 6 2 1"),
  (129, "53 1"),
  (132, "1us 2 3v0 1"),
  (133, "18g 1"),
  (137, "1us 2 3k a"),
  (138, "lf 2 2 2 1 1 o 3 7 2 1 2 ka 1 e 2 2 1 w 1 a b q 1 4nb 1 1 1"),
  (139, "4l1 2"),
  (140, "4l1 2"),
  (141, "lc 2 5 2 3 1 2lv a"),
  (144, "1us 2 vd6 a"),
  (145, "1u9 2 h 2 3uc 1 ro8 1 ky5 1 1 1 1j 2"),
  (147, "9gw g dr 1"),
  (148, "1u9 2 h 2 3u7 2 1 1 1 1 n 1"),
  (149, "170 1 e 2 2 1 1s a 1cw8 1 a 1"),
  (150, "jg 1 q 1 17 1 19 1"),
  (151, "9hk 4"),
  (152, "le 1 1 1 1 4 p 1"),
  (153, "1u9 2 h 2 3u7 1 c 1 f 1 ri5 a"),
  (154, "jg 1"),
  (161, "170 1 e 1 3 1 1s a"),
  (162, "9hd 2 5 a 2 8 67 1 14rp 5"),
  (164, "170 1 e 1 3 1"),
  (165, "1ut 1"),
  (167, "1us 2"),
  (168, "lc 2 1 1 9 1 2 1 s 1 3 1"),
  (169, "ld 1 2 1 2 1 9 1 1 1 22 1"),
  (170, "2jq a 35u 1 1 1 ri3 6 57 1")]

end UrlRouting.Unicode
