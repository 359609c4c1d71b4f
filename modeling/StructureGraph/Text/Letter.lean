import StructureGraph.Text.Identifier

namespace StructureGraph.Text

/-- Code points that are alphabetic or numeric and cannot begin an identifier. -/
def numberAndMarkRanges : Ranges := [
  (48, 57), (178, 179), (185, 185), (188, 190), (837, 837), (890, 890), (1456, 1469), (1471, 1471),
  (1473, 1474), (1476, 1477), (1479, 1479), (1552, 1562), (1611, 1623), (1625, 1641), (1648, 1648),
  (1750, 1756), (1761, 1764), (1767, 1768), (1773, 1773), (1776, 1785), (1809, 1809), (1840, 1855),
  (1958, 1968), (1984, 1993), (2070, 2071), (2075, 2083), (2085, 2087), (2089, 2092), (2260, 2271),
  (2275, 2281), (2288, 2307), (2362, 2363), (2366, 2380), (2382, 2383), (2389, 2391), (2402, 2403),
  (2406, 2415), (2433, 2435), (2494, 2500), (2503, 2504), (2507, 2508), (2519, 2519), (2530, 2531),
  (2534, 2543), (2548, 2553), (2561, 2563), (2622, 2626), (2631, 2632), (2635, 2636), (2641, 2641),
  (2662, 2673), (2677, 2677), (2689, 2691), (2750, 2757), (2759, 2761), (2763, 2764), (2786, 2787),
  (2790, 2799), (2810, 2812), (2817, 2819), (2878, 2884), (2887, 2888), (2891, 2892), (2902, 2903),
  (2914, 2915), (2918, 2927), (2930, 2935), (2946, 2946), (3006, 3010), (3014, 3016), (3018, 3020),
  (3031, 3031), (3046, 3058), (3072, 3076), (3134, 3140), (3142, 3144), (3146, 3148), (3157, 3158),
  (3170, 3171), (3174, 3183), (3192, 3198), (3201, 3203), (3262, 3268), (3270, 3272), (3274, 3276),
  (3285, 3286), (3298, 3299), (3302, 3311), (3315, 3315), (3328, 3331), (3390, 3396), (3398, 3400),
  (3402, 3404), (3415, 3422), (3426, 3427), (3430, 3448), (3457, 3459), (3535, 3540), (3542, 3542),
  (3544, 3551), (3558, 3567), (3570, 3571), (3633, 3633), (3635, 3642), (3661, 3661), (3664, 3673),
  (3761, 3761), (3763, 3769), (3771, 3772), (3789, 3789), (3792, 3801), (3872, 3891), (3953, 3971),
  (3981, 3991), (3993, 4028), (4139, 4150), (4152, 4152), (4155, 4158), (4160, 4169), (4182, 4185),
  (4190, 4192), (4194, 4196), (4199, 4205), (4209, 4212), (4226, 4237), (4239, 4253), (4969, 4988),
  (5906, 5907), (5938, 5939), (5970, 5971), (6002, 6003), (6070, 6088), (6112, 6121), (6128, 6137),
  (6160, 6169), (6313, 6313), (6432, 6443), (6448, 6456), (6470, 6479), (6608, 6618), (6679, 6683),
  (6741, 6750), (6753, 6772), (6784, 6793), (6800, 6809), (6847, 6848), (6860, 6862), (6912, 6916),
  (6965, 6979), (6992, 7001), (7040, 7042), (7073, 7081), (7084, 7085), (7088, 7097), (7143, 7153),
  (7204, 7222), (7232, 7241), (7248, 7257), (7655, 7668), (8304, 8304), (8308, 8313), (8320, 8329),
  (8528, 8543), (8585, 8585), (9312, 9371), (9398, 9471), (10102, 10131), (11517, 11517),
  (11744, 11775), (11823, 11823), (12690, 12693), (12832, 12841), (12872, 12879), (12881, 12895),
  (12928, 12937), (12977, 12991), (42528, 42537), (42612, 42619), (42654, 42655), (43010, 43010),
  (43019, 43019), (43043, 43047), (43056, 43061), (43136, 43137), (43188, 43203), (43205, 43205),
  (43216, 43225), (43263, 43273), (43302, 43306), (43335, 43346), (43392, 43395), (43444, 43455),
  (43472, 43481), (43493, 43493), (43504, 43513), (43561, 43574), (43587, 43587), (43596, 43597),
  (43600, 43609), (43643, 43645), (43696, 43696), (43698, 43700), (43703, 43704), (43710, 43710),
  (43755, 43759), (43765, 43765), (44003, 44010), (44016, 44025), (64286, 64286), (64606, 64611),
  (65018, 65019), (65136, 65136), (65138, 65138), (65140, 65140), (65142, 65142), (65144, 65144),
  (65146, 65146), (65148, 65148), (65150, 65150), (65296, 65305), (65438, 65439), (65799, 65843),
  (65909, 65912), (65930, 65931), (66273, 66299), (66336, 66339), (66422, 66426), (66720, 66729),
  (67672, 67679), (67705, 67711), (67751, 67759), (67835, 67839), (67862, 67867), (68028, 68029),
  (68032, 68047), (68050, 68095), (68097, 68099), (68101, 68102), (68108, 68111), (68160, 68168),
  (68221, 68222), (68253, 68255), (68331, 68335), (68440, 68447), (68472, 68479), (68521, 68527),
  (68858, 68863), (68900, 68903), (68912, 68921), (69216, 69246), (69291, 69292), (69405, 69414),
  (69457, 69460), (69573, 69579), (69632, 69634), (69688, 69701), (69714, 69743), (69747, 69748),
  (69760, 69762), (69808, 69816), (69826, 69826), (69872, 69881), (69888, 69890), (69927, 69938),
  (69942, 69951), (69957, 69958), (70016, 70018), (70067, 70079), (70094, 70105), (70113, 70132),
  (70188, 70196), (70199, 70199), (70206, 70206), (70209, 70209), (70367, 70376), (70384, 70393),
  (70400, 70403), (70462, 70468), (70471, 70472), (70475, 70476), (70487, 70487), (70498, 70499),
  (70709, 70721), (70723, 70725), (70736, 70745), (70832, 70849), (70864, 70873), (71087, 71093),
  (71096, 71102), (71132, 71133), (71216, 71230), (71232, 71232), (71248, 71257), (71339, 71349),
  (71360, 71369), (71453, 71466), (71472, 71483), (71724, 71736), (71904, 71922), (71984, 71989),
  (71991, 71992), (71995, 71996), (72000, 72000), (72002, 72002), (72016, 72025), (72145, 72151),
  (72154, 72159), (72164, 72164), (72193, 72202), (72245, 72249), (72251, 72254), (72273, 72283),
  (72330, 72343), (72751, 72758), (72760, 72766), (72784, 72812), (72850, 72871), (72873, 72886),
  (73009, 73014), (73018, 73018), (73020, 73021), (73023, 73025), (73027, 73027), (73031, 73031),
  (73040, 73049), (73098, 73102), (73104, 73105), (73107, 73110), (73120, 73129), (73459, 73462),
  (73472, 73473), (73475, 73475), (73524, 73530), (73534, 73536), (73552, 73561), (73664, 73684),
  (92768, 92777), (92864, 92873), (93008, 93017), (93019, 93025), (93824, 93846), (94031, 94031),
  (94033, 94087), (94095, 94098), (94192, 94193), (113822, 113822), (119488, 119507),
  (119520, 119539), (119648, 119672), (120782, 120831), (122880, 122886), (122888, 122904),
  (122907, 122913), (122915, 122916), (122918, 122922), (123023, 123023), (123200, 123209),
  (123632, 123641), (124144, 124153), (125127, 125135), (125255, 125255), (125264, 125273),
  (126065, 126123), (126125, 126127), (126129, 126132), (126209, 126253), (126255, 126269),
  (127232, 127244), (127280, 127305), (127312, 127337), (127344, 127369), (130032, 130041)]

/-- Uppercase code points as runs: the first, the last, and the step between neighbours. -/
def uppercaseRuns : List (Nat × Nat × Nat) := [
  (65, 90, 1), (192, 214, 1), (216, 222, 1), (256, 310, 2), (313, 327, 2), (330, 376, 2),
  (377, 381, 2), (385, 386, 1), (388, 390, 2), (391, 393, 2), (394, 395, 1), (398, 401, 1),
  (403, 404, 1), (406, 408, 1), (412, 413, 1), (415, 416, 1), (418, 422, 2), (423, 425, 2),
  (428, 430, 2), (431, 433, 2), (434, 435, 1), (437, 439, 2), (440, 440, 1), (444, 444, 1),
  (452, 452, 1), (455, 455, 1), (458, 458, 1), (461, 475, 2), (478, 494, 2), (497, 497, 1),
  (500, 502, 2), (503, 504, 1), (506, 562, 2), (570, 571, 1), (573, 574, 1), (577, 579, 2),
  (580, 582, 1), (584, 590, 2), (880, 882, 2), (886, 886, 1), (895, 895, 1), (902, 904, 2),
  (905, 906, 1), (908, 910, 2), (911, 913, 2), (914, 929, 1), (931, 939, 1), (975, 975, 1),
  (978, 980, 1), (984, 1006, 2), (1012, 1012, 1), (1015, 1017, 2), (1018, 1018, 1),
  (1021, 1071, 1), (1120, 1152, 2), (1162, 1216, 2), (1217, 1229, 2), (1232, 1326, 2),
  (1329, 1366, 1), (4256, 4293, 1), (4295, 4295, 1), (4301, 4301, 1), (5024, 5109, 1),
  (7312, 7354, 1), (7357, 7359, 1), (7680, 7828, 2), (7838, 7934, 2), (7944, 7951, 1),
  (7960, 7965, 1), (7976, 7983, 1), (7992, 7999, 1), (8008, 8013, 1), (8025, 8031, 2),
  (8040, 8047, 1), (8120, 8123, 1), (8136, 8139, 1), (8152, 8155, 1), (8168, 8172, 1),
  (8184, 8187, 1), (8450, 8450, 1), (8455, 8455, 1), (8459, 8461, 1), (8464, 8466, 1),
  (8469, 8469, 1), (8473, 8477, 1), (8484, 8490, 2), (8491, 8493, 1), (8496, 8499, 1),
  (8510, 8511, 1), (8517, 8517, 1), (8544, 8559, 1), (8579, 8579, 1), (9398, 9423, 1),
  (11264, 11311, 1), (11360, 11362, 2), (11363, 11364, 1), (11367, 11373, 2), (11374, 11376, 1),
  (11378, 11378, 1), (11381, 11381, 1), (11390, 11392, 1), (11394, 11490, 2), (11499, 11501, 2),
  (11506, 11506, 1), (42560, 42604, 2), (42624, 42650, 2), (42786, 42798, 2), (42802, 42862, 2),
  (42873, 42877, 2), (42878, 42886, 2), (42891, 42893, 2), (42896, 42898, 2), (42902, 42922, 2),
  (42923, 42926, 1), (42928, 42932, 1), (42934, 42948, 2), (42949, 42951, 1), (42953, 42953, 1),
  (42960, 42960, 1), (42966, 42968, 2), (42997, 42997, 1), (65313, 65338, 1), (66560, 66599, 1),
  (66736, 66771, 1), (66928, 66938, 1), (66940, 66954, 1), (66956, 66962, 1), (66964, 66965, 1),
  (68736, 68786, 1), (71840, 71871, 1), (93760, 93791, 1), (119808, 119833, 1),
  (119860, 119885, 1), (119912, 119937, 1), (119964, 119966, 2), (119967, 119967, 1),
  (119970, 119970, 1), (119973, 119974, 1), (119977, 119980, 1), (119982, 119989, 1),
  (120016, 120041, 1), (120068, 120069, 1), (120071, 120074, 1), (120077, 120084, 1),
  (120086, 120092, 1), (120120, 120121, 1), (120123, 120126, 1), (120128, 120132, 1),
  (120134, 120134, 1), (120138, 120144, 1), (120172, 120197, 1), (120224, 120249, 1),
  (120276, 120301, 1), (120328, 120353, 1), (120380, 120405, 1), (120432, 120457, 1),
  (120488, 120512, 1), (120546, 120570, 1), (120604, 120628, 1), (120662, 120686, 1),
  (120720, 120744, 1), (120778, 120778, 1), (125184, 125217, 1), (127280, 127305, 1),
  (127312, 127337, 1), (127344, 127369, 1)]

/-- The two characters that begin identifiers and are neither alphabetic nor numeric. -/
def isStartOnly (c : Char) : Bool :=
  c == '\u2118' || c == '\u212E'

def isAlphanumeric (c : Char) : Bool :=
  c.isAlphanum ||
    (decide (128 ≤ c.toNat) &&
      ((startRanges.contains c && !isStartOnly c) || numberAndMarkRanges.contains c))

def isUppercase (c : Char) : Bool :=
  uppercaseRuns.any fun (first, last, step) =>
    decide (first ≤ c.toNat) && decide (c.toNat ≤ last) && (c.toNat - first) % step == 0

end StructureGraph.Text
