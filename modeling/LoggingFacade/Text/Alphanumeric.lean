import LoggingFacade.Text.Graphic

/-!
# Letters and digits of all scripts

The characters with the Unicode property `Alphabetic` or a number category. Of
the graphic characters beyond ASCII only symbols, punctuation and some marks are
neither.
-/

namespace LoggingFacade
namespace Text

/-- The graphic code points beyond ASCII that are no letters and no digits. Code
points with no graphic of their own may stand inside a range. -/
def symbolRanges : List (Nat × Nat) :=
  [(161, 169), (171, 177), (180, 180), (182, 184), (187, 187), (191, 191), (215, 215), (247, 247),
   (706, 709), (722, 735), (741, 747), (749, 749), (751, 836), (838, 866), (885, 885), (894, 894),
   (900, 901), (903, 903), (1014, 1014), (1154, 1161), (1370, 1375), (1417, 1455), (1470, 1470),
   (1472, 1472), (1475, 1475), (1478, 1478), (1523, 1551), (1563, 1567), (1624, 1624),
   (1642, 1645), (1748, 1748), (1758, 1760), (1769, 1772), (1789, 1790), (1792, 1805),
   (1856, 1866), (2027, 2035), (2038, 2041), (2045, 2047), (2072, 2073), (2093, 2110),
   (2137, 2142), (2184, 2184), (2200, 2207), (2250, 2259), (2272, 2273), (2282, 2287),
   (2364, 2364), (2381, 2381), (2385, 2388), (2404, 2405), (2416, 2416), (2492, 2492),
   (2509, 2509), (2546, 2547), (2554, 2555), (2557, 2558), (2620, 2620), (2637, 2637),
   (2678, 2678), (2748, 2748), (2765, 2765), (2800, 2801), (2813, 2815), (2876, 2876),
   (2893, 2901), (2928, 2928), (3021, 3021), (3059, 3066), (3132, 3132), (3149, 3149),
   (3191, 3191), (3199, 3199), (3204, 3204), (3260, 3260), (3277, 3277), (3387, 3388),
   (3405, 3405), (3407, 3407), (3449, 3449), (3530, 3530), (3572, 3572), (3647, 3647),
   (3655, 3660), (3662, 3663), (3674, 3675), (3770, 3770), (3784, 3788), (3790, 3790),
   (3841, 3871), (3892, 3903), (3972, 3975), (4030, 4058), (4151, 4151), (4153, 4154),
   (4170, 4175), (4254, 4255), (4347, 4347), (4957, 4968), (5008, 5017), (5120, 5120),
   (5741, 5742), (5787, 5788), (5867, 5869), (5908, 5909), (5940, 5942), (6068, 6069),
   (6089, 6102), (6104, 6107), (6109, 6109), (6144, 6159), (6457, 6469), (6622, 6655),
   (6686, 6687), (6752, 6752), (6773, 6783), (6816, 6822), (6824, 6846), (6849, 6859),
   (6964, 6964), (6980, 6980), (6990, 6991), (7002, 7039), (7082, 7083), (7142, 7142),
   (7154, 7167), (7223, 7231), (7294, 7295), (7360, 7400), (7405, 7405), (7412, 7412),
   (7415, 7417), (7616, 7634), (7669, 7679), (8125, 8125), (8127, 8129), (8141, 8143),
   (8157, 8159), (8173, 8175), (8189, 8286), (8314, 8318), (8330, 8334), (8352, 8449),
   (8451, 8454), (8456, 8457), (8468, 8468), (8470, 8472), (8478, 8483), (8485, 8485),
   (8487, 8487), (8489, 8489), (8494, 8494), (8506, 8507), (8512, 8516), (8522, 8525),
   (8527, 8527), (8586, 9290), (9372, 9397), (9472, 10101), (10132, 11263), (11493, 11498),
   (11503, 11505), (11513, 11516), (11518, 11519), (11632, 11647), (11776, 11822), (11824, 12292),
   (12296, 12320), (12330, 12336), (12342, 12343), (12349, 12351), (12441, 12444), (12448, 12448),
   (12539, 12539), (12688, 12689), (12694, 12703), (12736, 12783), (12800, 12830), (12842, 12871),
   (12880, 12880), (12896, 12927), (12938, 12976), (12992, 13311), (19904, 19967), (42128, 42182),
   (42238, 42239), (42509, 42511), (42607, 42611), (42620, 42622), (42736, 42774), (42784, 42785),
   (42889, 42890), (43014, 43014), (43048, 43052), (43062, 43065), (43124, 43127), (43204, 43204),
   (43214, 43215), (43232, 43249), (43256, 43258), (43260, 43260), (43307, 43311), (43347, 43359),
   (43443, 43443), (43456, 43469), (43486, 43487), (43612, 43615), (43639, 43641), (43711, 43711),
   (43713, 43713), (43742, 43743), (43760, 43761), (43766, 43766), (43867, 43867), (43882, 43883),
   (44011, 44013), (64297, 64297), (64434, 64450), (64830, 64847), (64975, 64975), (65020, 65131),
   (65281, 65295), (65306, 65312), (65339, 65344), (65371, 65381), (65504, 65533), (65792, 65794),
   (65847, 65855), (65913, 65929), (65932, 66045), (66272, 66272), (66463, 66463), (66512, 66512),
   (66927, 66927), (67671, 67671), (67703, 67704), (67871, 67871), (67903, 67903), (68152, 68159),
   (68176, 68184), (68223, 68223), (68296, 68296), (68325, 68326), (68336, 68342), (68409, 68415),
   (68505, 68508), (68970, 68974), (69006, 69007), (69293, 69293), (69373, 69375), (69446, 69456),
   (69461, 69465), (69506, 69513), (69702, 69709), (69744, 69744), (69759, 69759), (69817, 69825),
   (69939, 69940), (69952, 69955), (70003, 70005), (70080, 70080), (70085, 70093), (70107, 70107),
   (70109, 70111), (70197, 70198), (70200, 70205), (70313, 70313), (70377, 70378), (70459, 70460),
   (70477, 70477), (70502, 70516), (70606, 70608), (70610, 70610), (70612, 70626), (70722, 70722),
   (70726, 70726), (70731, 70735), (70746, 70750), (70850, 70851), (70854, 70854), (71103, 71127),
   (71231, 71231), (71233, 71235), (71264, 71276), (71350, 71351), (71353, 71353), (71467, 71467),
   (71484, 71487), (71737, 71739), (71997, 71998), (72003, 72006), (72160, 72160), (72162, 72162),
   (72243, 72244), (72255, 72263), (72344, 72348), (72350, 72354), (72448, 72457), (72673, 72673),
   (72767, 72767), (72769, 72773), (72816, 72817), (73026, 73026), (73028, 73029), (73111, 73111),
   (73463, 73464), (73537, 73551), (73562, 73562), (73685, 73727), (74864, 74868), (77809, 77810),
   (78912, 78912), (78919, 78933), (90415, 90415), (92782, 92783), (92912, 92917), (92976, 92991),
   (92996, 92997), (93549, 93551), (93847, 93850), (94178, 94178), (94180, 94180),
   (113820, 113821), (113823, 117999), (118016, 119365), (119552, 119638), (120513, 120513),
   (120539, 120539), (120571, 120571), (120597, 120597), (120629, 120629), (120655, 120655),
   (120687, 120687), (120713, 120713), (120745, 120745), (120771, 120771), (120832, 121519),
   (123184, 123190), (123215, 123215), (123566, 123566), (123628, 123631), (123647, 123647),
   (124140, 124143), (124398, 124399), (124415, 124415), (125136, 125142), (125252, 125254),
   (125256, 125258), (125278, 125279), (126124, 126124), (126128, 126128), (126254, 126254),
   (126704, 127221), (127245, 127279), (127306, 127311), (127338, 127343), (127370, 130031),
   (917760, 917999)]

def isAlphanumeric (c : Char) : Bool :=
  c.isAlphanum || (128 ≤ c.toNat && isGraphic c && !inRanges symbolRanges c.toNat)

theorem isAlphanumeric_of_isAlphanum {c : Char} (h : c.isAlphanum = true) :
    isAlphanumeric c = true := by
  simp [isAlphanumeric, h]

end Text
end LoggingFacade
