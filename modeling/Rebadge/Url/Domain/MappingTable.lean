/-!
# The mapping of domain names

What becomes of each character of a domain name before it is looked up. The table is a text of words
`<first><rule><codes>`, each for the code points from the given one up to the one before the next
word. The rule is `V` for valid, `X` for refused, `I` for left out, `M` for replaced by the codes,
`S` for the code points from the given one on, and `P` for pairs, of which the first is replaced by
the second.
-/

namespace Rebadge.Url.Domain

/-- The table, in hexadecimal. -/
def mappingText : String := "
  0V 41S61 5BV 80X A0S20 A1V A8M20,308 A9V AAS61 ABV ADI AEV AFM20,304 B0V B2S32 B4M20,301 B5S3BC
  B6V B8M20,327 B9S31 BAS6F BBV BCM31,2044,34 BDM31,2044,32 BEM33,2044,34 BFV C0SE0 D7V D8SF8 DFV
  100P 130M69,307 131V 132M69,6A 134P 138V 139P 13FM6C,B7 141P 149M2BC,6E 14AP 178SFF 179P 17FS73
  180V 181S253 182P 186S254 187S188 188V 189S256 18BS18C 18CV 18ES1DD 18FS259 190S25B 191S192 192V
  193S260 194S263 195V 196S269 197S268 198S199 199V 19CS26F 19DS272 19EV 19FS275 1A0P 1A6S280
  1A7S1A8 1A8V 1A9S283 1AAV 1ACS1AD 1ADV 1AES288 1AFS1B0 1B0V 1B1S28A 1B3P 1B7S292 1B8S1B9 1B9V
  1BCS1BD 1BDV 1C4M64,17E 1C7M6C,6A 1CAM6E,6A 1CDP 1DDV 1DEP 1F0V 1F1M64,7A 1F4S1F5 1F5V 1F6S195
  1F7S1BF 1F8P 220S19E 221V 222P 234V 23AS2C65 23BS23C 23CV 23DS19A 23ES2C66 23FV 241S242 242V
  243S180 244S289 245S28C 246P 250V 2B0S68 2B1S266 2B2S6A 2B3S72 2B4S279 2B5S27B 2B6S281 2B7S77
  2B8S79 2B9V 2D8M20,306 2D9M20,307 2DAM20,30A 2DBM20,328 2DCM20,303 2DDM20,30B 2DEV 2E0S263 2E1S6C
  2E2S73 2E3S78 2E4S295 2E5V 340S300 342V 343S313 344M308,301 345S3B9 346V 34FI 350V 370P 374S2B9
  375V 376S377 377V 378X 37AM20,3B9 37BV 37ES3B 37FS3F3 380X 384M20,301 385M20,308,301 386S3AC
  387SB7 388S3AD 38BX 38CS3CC 38DX 38ES3CD 390V 391S3B1 3A2X 3A3S3C3 3ACV 3CFS3D7 3D0S3B2 3D1S3B8
  3D2S3C5 3D3S3CD 3D4S3CB 3D5S3C6 3D6S3C0 3D7V 3D8P 3F0S3BA 3F1S3C1 3F2S3C3 3F3V 3F4S3B8 3F5S3B5
  3F6V 3F7S3F8 3F8V 3F9S3C3 3FAS3FB 3FBV 3FDS37B 400S450 410S430 430V 460P 482V 48AP 4C0S4CF 4C1P
  4CFV 4D0P 530X 531S561 557X 559V 587M565,582 588V 58BX 58DV 590X 591V 5C8X 5D0V 5EBX 5EFV 5F5X
  606V 61CX 61DV 675M627,674 676M648,674 677M6C7,674 678M64A,674 679V 6DDX 6DEV 70EX 710V 74BX 74DV
  7B2X 7C0V 7FBX 7FDV 82EX 830V 83FX 840V 85CX 85EV 85FX 860V 86BX 870V 890X 897V 8E2X 8E3V
  958M915,93C 959M916,93C 95AM917,93C 95BM91C,93C 95CM921,93C 95DM922,93C 95EM92B,93C 95FM92F,93C
  960V 984X 985V 98DX 98FV 991X 993V 9A9X 9AAV 9B1X 9B2V 9B3X 9B6V 9BAX 9BCV 9C5X 9C7V 9C9X 9CBV
  9CFX 9D7V 9D8X 9DCM9A1,9BC 9DDM9A2,9BC 9DEX 9DFM9AF,9BC 9E0V 9E4X 9E6V 9FFX A01V A04X A05V A0BX
  A0FV A11X A13V A29X A2AV A31X A32V A33MA32,A3C A34X A35V A36MA38,A3C A37X A38V A3AX A3CV A3DX A3EV
  A43X A47V A49X A4BV A4EX A51V A52X A59MA16,A3C A5AMA17,A3C A5BMA1C,A3C A5CV A5DX A5EMA2B,A3C A5FX
  A66V A77X A81V A84X A85V A8EX A8FV A92X A93V AA9X AAAV AB1X AB2V AB4X AB5V ABAX ABCV AC6X AC7V
  ACAX ACBV ACEX AD0V AD1X AE0V AE4X AE6V AF2X AF9V B00X B01V B04X B05V B0DX B0FV B11X B13V B29X
  B2AV B31X B32V B34X B35V B3AX B3CV B45X B47V B49X B4BV B4EX B55V B58X B5CMB21,B3C B5DMB22,B3C B5EX
  B5FV B64X B66V B78X B82V B84X B85V B8BX B8EV B91X B92V B96X B99V B9BX B9CV B9DX B9EV BA0X BA3V
  BA5X BA8V BABX BAEV BBAX BBEV BC3X BC6V BC9X BCAV BCEX BD0V BD1X BD7V BD8X BE6V BFBX C00V C0DX
  C0EV C11X C12V C29X C2AV C3AX C3CV C45X C46V C49X C4AV C4EX C55V C57X C58V C5BX C5CV C5EX C60V
  C64X C66V C70X C77V C8DX C8EV C91X C92V CA9X CAAV CB4X CB5V CBAX CBCV CC5X CC6V CC9X CCAV CCEX
  CD5V CD7X CDCV CDFX CE0V CE4X CE6V CF0X CF1V CF4X D00V D0DX D0EV D11X D12V D45X D46V D49X D4AV
  D50X D54V D64X D66V D80X D81V D84X D85V D97X D9AV DB2X DB3V DBCX DBDV DBEX DC0V DC7X DCAV DCBX
  DCFV DD5X DD6V DD7X DD8V DE0X DE6V DF0X DF2V DF5X E01V E33ME4D,E32 E34V E3BX E3FV E5CX E81V E83X
  E84V E85X E86V E8BX E8CV EA4X EA5V EA6X EA7V EB3MECD,EB2 EB4V EBEX EC0V EC5X EC6V EC7X EC8V ECFX
  ED0V EDAX EDCMEAB,E99 EDDMEAB,EA1 EDEV EE0X F00V F0CSF0B F0DV F43MF42,FB7 F44V F48X F49V
  F4DMF4C,FB7 F4EV F52MF51,FB7 F53V F57MF56,FB7 F58V F5CMF5B,FB7 F5DV F69MF40,FB5 F6AV F6DX F71V
  F73MF71,F72 F74V F75MF71,F74 F76MFB2,F80 F77MFB2,F71,F80 F78MFB3,F80 F79MFB3,F71,F80 F7AV
  F81MF71,F80 F82V F93MF92,FB7 F94V F98X F99V F9DMF9C,FB7 F9EV FA2MFA1,FB7 FA3V FA7MFA6,FB7 FA8V
  FACMFAB,FB7 FADV FB9MF90,FB5 FBAV FBDX FBEV FCDX FCEV FDBX 1000V 10A0S2D00 10C6X 10C7S2D27 10C8X
  10CDS2D2D 10CEX 10D0V 10FCS10DC 10FDV 115FI 1161V 1249X 124AV 124EX 1250V 1257X 1258V 1259X 125AV
  125EX 1260V 1289X 128AV 128EX 1290V 12B1X 12B2V 12B6X 12B8V 12BFX 12C0V 12C1X 12C2V 12C6X 12C8V
  12D7X 12D8V 1311X 1312V 1316X 1318V 135BX 135DV 137DX 1380V 139AX 13A0V 13F6X 13F8S13F0 13FEX
  1400V 1680X 1681V 169DX 16A0V 16F9X 1700V 1716X 171FV 1737X 1740V 1754X 1760V 176DX 176EV 1771X
  1772V 1774X 1780V 17B4I 17B6V 17DEX 17E0V 17EAX 17F0V 17FAX 1800V 180BI 1810V 181AX 1820V 1879X
  1880V 18ABX 18B0V 18F6X 1900V 191FX 1920V 192CX 1930V 193CX 1940V 1941X 1944V 196EX 1970V 1975X
  1980V 19ACX 19B0V 19CAX 19D0V 19DBX 19DEV 1A1CX 1A1EV 1A5FX 1A60V 1A7DX 1A7FV 1A8AX 1A90V 1A9AX
  1AA0V 1AAEX 1AB0V 1ADEX 1AE0V 1AECX 1B00V 1B4DX 1B4EV 1BF4X 1BFCV 1C38X 1C3BV 1C4AX 1C4DV 1C80S432
  1C81S434 1C82S43E 1C83S441 1C85S442 1C86S44A 1C87S463 1C88SA64B 1C89S1C8A 1C8AV 1C8BX 1C90S10D0
  1CBBX 1CBDS10FD 1CC0V 1CC8X 1CD0V 1CFBX 1D00V 1D2CS61 1D2DSE6 1D2ES62 1D2FV 1D30S64 1D32S1DD
  1D33S67 1D3BV 1D3CS6F 1D3DS223 1D3ES70 1D3FS72 1D40S74 1D42S77 1D43S61 1D44S250 1D46S1D02 1D47S62
  1D48S64 1D4AS259 1D4BS25B 1D4DS67 1D4EV 1D4FS6B 1D50S6D 1D51S14B 1D52S6F 1D53S254 1D54S1D16
  1D56S70 1D57S74 1D59S1D1D 1D5AS26F 1D5BS76 1D5CS1D25 1D5DS3B2 1D60S3C6 1D62S69 1D63S72 1D64S75
  1D66S3B2 1D68S3C1 1D69S3C6 1D6BV 1D78S43D 1D79V 1D9BS252 1D9CS63 1D9DS255 1D9ESF0 1D9FS25C 1DA0S66
  1DA1S25F 1DA2S261 1DA3S265 1DA4S268 1DA7S1D7B 1DA8S29D 1DA9S26D 1DAAS1D85 1DABS29F 1DACS271
  1DADS270 1DAES272 1DB2S278 1DB3S282 1DB5S1AB 1DB6S289 1DB8S1D1C 1DB9S28B 1DBBS7A 1DBCS290 1DBFS3B8
  1DC0V 1E00P 1E96V 1E9AM61,2BE 1E9BS1E61 1E9CV 1E9ESDF 1E9FV 1EA0P 1F00V 1F08S1F00 1F10V 1F16X
  1F18S1F10 1F1EX 1F20V 1F28S1F20 1F30V 1F38S1F30 1F40V 1F46X 1F48S1F40 1F4EX 1F50V 1F58X 1F59S1F51
  1F5AX 1F5BS1F53 1F5CX 1F5DS1F55 1F5EX 1F5FS1F57 1F60V 1F68S1F60 1F70V 1F71S3AC 1F72V 1F73S3AD
  1F74V 1F75S3AE 1F76V 1F77S3AF 1F78V 1F79S3CC 1F7AV 1F7BS3CD 1F7CV 1F7DS3CE 1F7EX 1F80M1F00,3B9
  1F81M1F01,3B9 1F82M1F02,3B9 1F83M1F03,3B9 1F84M1F04,3B9 1F85M1F05,3B9 1F86M1F06,3B9 1F87M1F07,3B9
  1F88M1F00,3B9 1F89M1F01,3B9 1F8AM1F02,3B9 1F8BM1F03,3B9 1F8CM1F04,3B9 1F8DM1F05,3B9 1F8EM1F06,3B9
  1F8FM1F07,3B9 1F90M1F20,3B9 1F91M1F21,3B9 1F92M1F22,3B9 1F93M1F23,3B9 1F94M1F24,3B9 1F95M1F25,3B9
  1F96M1F26,3B9 1F97M1F27,3B9 1F98M1F20,3B9 1F99M1F21,3B9 1F9AM1F22,3B9 1F9BM1F23,3B9 1F9CM1F24,3B9
  1F9DM1F25,3B9 1F9EM1F26,3B9 1F9FM1F27,3B9 1FA0M1F60,3B9 1FA1M1F61,3B9 1FA2M1F62,3B9 1FA3M1F63,3B9
  1FA4M1F64,3B9 1FA5M1F65,3B9 1FA6M1F66,3B9 1FA7M1F67,3B9 1FA8M1F60,3B9 1FA9M1F61,3B9 1FAAM1F62,3B9
  1FABM1F63,3B9 1FACM1F64,3B9 1FADM1F65,3B9 1FAEM1F66,3B9 1FAFM1F67,3B9 1FB0V 1FB2M1F70,3B9
  1FB3M3B1,3B9 1FB4M3AC,3B9 1FB5X 1FB6V 1FB7M1FB6,3B9 1FB8S1FB0 1FBAS1F70 1FBBS3AC 1FBCM3B1,3B9
  1FBDM20,313 1FBES3B9 1FBFM20,313 1FC0M20,342 1FC1M20,308,342 1FC2M1F74,3B9 1FC3M3B7,3B9
  1FC4M3AE,3B9 1FC5X 1FC6V 1FC7M1FC6,3B9 1FC8S1F72 1FC9S3AD 1FCAS1F74 1FCBS3AE 1FCCM3B7,3B9
  1FCDM20,313,300 1FCEM20,313,301 1FCFM20,313,342 1FD0V 1FD3S390 1FD4X 1FD6V 1FD8S1FD0 1FDAS1F76
  1FDBS3AF 1FDCX 1FDDM20,314,300 1FDEM20,314,301 1FDFM20,314,342 1FE0V 1FE3S3B0 1FE4V 1FE8S1FE0
  1FEAS1F7A 1FEBS3CD 1FECS1FE5 1FEDM20,308,300 1FEEM20,308,301 1FEFS60 1FF0X 1FF2M1F7C,3B9
  1FF3M3C9,3B9 1FF4M3CE,3B9 1FF5X 1FF6V 1FF7M1FF6,3B9 1FF8S1F78 1FF9S3CC 1FFAS1F7C 1FFBS3CE
  1FFCM3C9,3B9 1FFDM20,301 1FFEM20,314 1FFFX 2000M20 200BI 200CV 200EX 2010V 2011S2010 2012V
  2017M20,333 2018V 2024X 2027V 2028X 202FS20 2030V 2033M2032,2032 2034M2032,2032,2032 2035V
  2036M2035,2035 2037M2035,2035,2035 2038V 203CM21,21 203DV 203EM20,305 203FV 2047M3F,3F 2048M3F,21
  2049M21,3F 204AV 2057M2032,2032,2032,2032 2058V 205FS20 2060I 2065X 206AI 2070S30 2071S69 2072X
  2074S34 207AS2B 207BS2212 207CS3D 207DS28 207FS6E 2080S30 208AS2B 208BS2212 208CS3D 208DS28 208FX
  2090S61 2091S65 2092S6F 2093S78 2094S259 2095S68 2096S6B 209AS70 209BS73 209DX 20A0V 20A8M72,73
  20A9V 20C2X 20D0V 20F1X 2100M61,2F,63 2101M61,2F,73 2102S63 2103MB0,63 2104V 2105M63,2F,6F
  2106M63,2F,75 2107S25B 2108V 2109MB0,66 210AS67 210CM68 210FS127 2110M69 2112M6C 2114V 2115S6E
  2116M6E,6F 2117V 2119S70 211CM72 211EV 2120M73,6D 2121M74,65,6C 2122M74,6D 2123V 2124S7A 2125V
  2126S3C9 2127V 2128S7A 2129V 212AS6B 212BSE5 212CS62 212EV 212FM65 2131S66 2132S214E 2133S6D
  2134S6F 2135S5D0 2139S69 213AV 213BM66,61,78 213CS3C0 213DM3B3 213FS3C0 2140S2211 2141V 2145M64
  2147S65 2148S69 214AV 2150M31,2044,37 2151M31,2044,39 2152M31,2044,31,30 2153M31,2044,33
  2154M32,2044,33 2155M31,2044,35 2156M32,2044,35 2157M33,2044,35 2158M34,2044,35 2159M31,2044,36
  215AM35,2044,36 215BM31,2044,38 215CM33,2044,38 215DM35,2044,38 215EM37,2044,38 215FM31,2044
  2160S69 2161M69,69 2162M69,69,69 2163M69,76 2164S76 2165M76,69 2166M76,69,69 2167M76,69,69,69
  2168M69,78 2169S78 216AM78,69 216BM78,69,69 216CS6C 216DS63 216FS6D 2170S69 2171M69,69
  2172M69,69,69 2173M69,76 2174S76 2175M76,69 2176M76,69,69 2177M76,69,69,69 2178M69,78 2179S78
  217AM78,69 217BM78,69,69 217CS6C 217DS63 217FS6D 2180V 2183S2184 2184V 2189M30,2044,33 218AV 218CX
  2190V 222CM222B,222B 222DM222B,222B,222B 222EV 222FM222E,222E 2230M222E,222E,222E 2231V 2329S3008
  232BV 242AX 2440V 244BX 2460S31 2469M31,30 246AM31,31 246BM31,32 246CM31,33 246DM31,34 246EM31,35
  246FM31,36 2470M31,37 2471M31,38 2472M31,39 2473M32,30 2474M28,31,29 2475M28,32,29 2476M28,33,29
  2477M28,34,29 2478M28,35,29 2479M28,36,29 247AM28,37,29 247BM28,38,29 247CM28,39,29
  247DM28,31,30,29 247EM28,31,31,29 247FM28,31,32,29 2480M28,31,33,29 2481M28,31,34,29
  2482M28,31,35,29 2483M28,31,36,29 2484M28,31,37,29 2485M28,31,38,29 2486M28,31,39,29
  2487M28,32,30,29 2488X 249CM28,61,29 249DM28,62,29 249EM28,63,29 249FM28,64,29 24A0M28,65,29
  24A1M28,66,29 24A2M28,67,29 24A3M28,68,29 24A4M28,69,29 24A5M28,6A,29 24A6M28,6B,29 24A7M28,6C,29
  24A8M28,6D,29 24A9M28,6E,29 24AAM28,6F,29 24ABM28,70,29 24ACM28,71,29 24ADM28,72,29 24AEM28,73,29
  24AFM28,74,29 24B0M28,75,29 24B1M28,76,29 24B2M28,77,29 24B3M28,78,29 24B4M28,79,29 24B5M28,7A,29
  24B6S61 24D0S61 24EAS30 24EBV 2A0CM222B,222B,222B,222B 2A0DV 2A74M3A,3A,3D 2A75M3D,3D
  2A76M3D,3D,3D 2A77V 2ADCM2ADD,338 2ADDV 2B74X 2B76V 2C00S2C30 2C30V 2C60S2C61 2C61V 2C62S26B
  2C63S1D7D 2C64S27D 2C65V 2C67P 2C6DS251 2C6ES271 2C6FS250 2C70S252 2C71V 2C72S2C73 2C73V 2C75S2C76
  2C76V 2C7CS6A 2C7DS76 2C7ES23F 2C80P 2CE4V 2CEBP 2CEFV 2CF2S2CF3 2CF3V 2CF4X 2CF9V 2D26X 2D27V
  2D28X 2D2DV 2D2EX 2D30V 2D68X 2D6FS2D61 2D70V 2D71X 2D7FV 2D97X 2DA0V 2DA7X 2DA8V 2DAFX 2DB0V
  2DB7X 2DB8V 2DBFX 2DC0V 2DC7X 2DC8V 2DCFX 2DD0V 2DD7X 2DD8V 2DDFX 2DE0V 2E5EX 2E80V 2E9AX 2E9BV
  2E9FS6BCD 2EA0V 2EF3S9F9F 2EF4X 2F00S4E00 2F01S4E28 2F02S4E36 2F03S4E3F 2F04S4E59 2F05S4E85
  2F06S4E8C 2F07S4EA0 2F08S4EBA 2F09S513F 2F0AS5165 2F0BS516B 2F0CS5182 2F0DS5196 2F0ES51AB
  2F0FS51E0 2F10S51F5 2F11S5200 2F12S529B 2F13S52F9 2F14S5315 2F15S531A 2F16S5338 2F17S5341
  2F18S535C 2F19S5369 2F1AS5382 2F1BS53B6 2F1CS53C8 2F1DS53E3 2F1ES56D7 2F1FS571F 2F20S58EB
  2F21S5902 2F22S590A 2F23S5915 2F24S5927 2F25S5973 2F26S5B50 2F27S5B80 2F28S5BF8 2F29S5C0F
  2F2AS5C22 2F2BS5C38 2F2CS5C6E 2F2DS5C71 2F2ES5DDB 2F2FS5DE5 2F30S5DF1 2F31S5DFE 2F32S5E72
  2F33S5E7A 2F34S5E7F 2F35S5EF4 2F36S5EFE 2F37S5F0B 2F38S5F13 2F39S5F50 2F3AS5F61 2F3BS5F73
  2F3CS5FC3 2F3DS6208 2F3ES6236 2F3FS624B 2F40S652F 2F41S6534 2F42S6587 2F43S6597 2F44S65A4
  2F45S65B9 2F46S65E0 2F47S65E5 2F48S66F0 2F49S6708 2F4AS6728 2F4BS6B20 2F4CS6B62 2F4DS6B79
  2F4ES6BB3 2F4FS6BCB 2F50S6BD4 2F51S6BDB 2F52S6C0F 2F53S6C14 2F54S6C34 2F55S706B 2F56S722A
  2F57S7236 2F58S723B 2F59S723F 2F5AS7247 2F5BS7259 2F5CS725B 2F5DS72AC 2F5ES7384 2F5FS7389
  2F60S74DC 2F61S74E6 2F62S7518 2F63S751F 2F64S7528 2F65S7530 2F66S758B 2F67S7592 2F68S7676
  2F69S767D 2F6AS76AE 2F6BS76BF 2F6CS76EE 2F6DS77DB 2F6ES77E2 2F6FS77F3 2F70S793A 2F71S79B8
  2F72S79BE 2F73S7A74 2F74S7ACB 2F75S7AF9 2F76S7C73 2F77S7CF8 2F78S7F36 2F79S7F51 2F7AS7F8A
  2F7BS7FBD 2F7CS8001 2F7DS800C 2F7ES8012 2F7FS8033 2F80S807F 2F81S8089 2F82S81E3 2F83S81EA
  2F84S81F3 2F85S81FC 2F86S820C 2F87S821B 2F88S821F 2F89S826E 2F8AS8272 2F8BS8278 2F8CS864D
  2F8DS866B 2F8ES8840 2F8FS884C 2F90S8863 2F91S897E 2F92S898B 2F93S89D2 2F94S8A00 2F95S8C37
  2F96S8C46 2F97S8C55 2F98S8C78 2F99S8C9D 2F9AS8D64 2F9BS8D70 2F9CS8DB3 2F9DS8EAB 2F9ES8ECA
  2F9FS8F9B 2FA0S8FB0 2FA1S8FB5 2FA2S9091 2FA3S9149 2FA4S91C6 2FA5S91CC 2FA6S91D1 2FA7S9577
  2FA8S9580 2FA9S961C 2FAAS96B6 2FABS96B9 2FACS96E8 2FADS9751 2FAES975E 2FAFS9762 2FB0S9769
  2FB1S97CB 2FB2S97ED 2FB3S97F3 2FB4S9801 2FB5S98A8 2FB6S98DB 2FB7S98DF 2FB8S9996 2FB9S9999
  2FBAS99AC 2FBBS9AA8 2FBCS9AD8 2FBDS9ADF 2FBES9B25 2FBFS9B2F 2FC0S9B32 2FC1S9B3C 2FC2S9B5A
  2FC3S9CE5 2FC4S9E75 2FC5S9E7F 2FC6S9EA5 2FC7S9EBB 2FC8S9EC3 2FC9S9ECD 2FCAS9ED1 2FCBS9EF9
  2FCCS9EFD 2FCDS9F0E 2FCES9F13 2FCFS9F20 2FD0S9F3B 2FD1S9F4A 2FD2S9F52 2FD3S9F8D 2FD4S9F9C
  2FD5S9FA0 2FD6X 3000S20 3001V 3002S2E 3003V 3036S3012 3037V 3038S5341 3039S5344 303BV 3040X 3041V
  3097X 3099V 309BM20,3099 309CM20,309A 309DV 309FM3088,308A 30A0V 30FFM30B3,30C8 3100X 3105V 3130X
  3131S1100 3133S11AA 3134S1102 3135S11AC 3137S1103 313AS11B0 3140S111A 3141S1106 3144S1121
  3145S1109 314FS1161 3164I 3165S1114 3167S11C7 3169S11CC 316AS11CE 316BS11D3 316CS11D7 316DS11D9
  316ES111C 316FS11DD 3170S11DF 3171S111D 3173S1120 3174S1122 3176S1127 3177S1129 3178S112B
  317DS1132 317ES1136 317FS1140 3180S1147 3181S114C 3182S11F1 3184S1157 3187S1184 3189S1188
  318AS1191 318CS1194 318DS119E 318ES11A1 318FX 3190V 3192S4E00 3193S4E8C 3194S4E09 3195S56DB
  3196S4E0A 3197S4E2D 3198S4E0B 3199S7532 319AS4E59 319BS4E19 319CS4E01 319DS5929 319ES5730
  319FS4EBA 31A0V 31E6X 31F0V 3200M28,1100,29 3201M28,1102,29 3202M28,1103,29 3203M28,1105,29
  3204M28,1106,29 3205M28,1107,29 3206M28,1109,29 3207M28,110B,29 3208M28,110C,29 3209M28,110E,29
  320AM28,110F,29 320BM28,1110,29 320CM28,1111,29 320DM28,1112,29 320EM28,AC00,29 320FM28,B098,29
  3210M28,B2E4,29 3211M28,B77C,29 3212M28,B9C8,29 3213M28,BC14,29 3214M28,C0AC,29 3215M28,C544,29
  3216M28,C790,29 3217M28,CC28,29 3218M28,CE74,29 3219M28,D0C0,29 321AM28,D30C,29 321BM28,D558,29
  321CM28,C8FC,29 321DM28,C624,C804,29 321EM28,C624,D6C4,29 321FX 3220M28,4E00,29 3221M28,4E8C,29
  3222M28,4E09,29 3223M28,56DB,29 3224M28,4E94,29 3225M28,516D,29 3226M28,4E03,29 3227M28,516B,29
  3228M28,4E5D,29 3229M28,5341,29 322AM28,6708,29 322BM28,706B,29 322CM28,6C34,29 322DM28,6728,29
  322EM28,91D1,29 322FM28,571F,29 3230M28,65E5,29 3231M28,682A,29 3232M28,6709,29 3233M28,793E,29
  3234M28,540D,29 3235M28,7279,29 3236M28,8CA1,29 3237M28,795D,29 3238M28,52B4,29 3239M28,4EE3,29
  323AM28,547C,29 323BM28,5B66,29 323CM28,76E3,29 323DM28,4F01,29 323EM28,8CC7,29 323FM28,5354,29
  3240M28,796D,29 3241M28,4F11,29 3242M28,81EA,29 3243M28,81F3,29 3244S554F 3245S5E7C 3246S6587
  3247S7B8F 3248V 3250M70,74,65 3251M32,31 3252M32,32 3253M32,33 3254M32,34 3255M32,35 3256M32,36
  3257M32,37 3258M32,38 3259M32,39 325AM33,30 325BM33,31 325CM33,32 325DM33,33 325EM33,34 325FM33,35
  3260S1100 3261S1102 3263S1105 3266S1109 3267S110B 3269S110E 326ESAC00 326FSB098 3270SB2E4
  3271SB77C 3272SB9C8 3273SBC14 3274SC0AC 3275SC544 3276SC790 3277SCC28 3278SCE74 3279SD0C0
  327ASD30C 327BSD558 327CMCC38,ACE0 327DMC8FC,C758 327ESC6B0 327FV 3280S4E00 3281S4E8C 3282S4E09
  3283S56DB 3284S4E94 3285S516D 3286S4E03 3287S516B 3288S4E5D 3289S5341 328AS6708 328BS706B
  328CS6C34 328DS6728 328ES91D1 328FS571F 3290S65E5 3291S682A 3292S6709 3293S793E 3294S540D
  3295S7279 3296S8CA1 3297S795D 3298S52B4 3299S79D8 329AS7537 329BS5973 329CS9069 329DS512A
  329ES5370 329FS6CE8 32A0S9805 32A1S4F11 32A2S5199 32A3S6B63 32A4S4E0A 32A5S4E2D 32A6S4E0B
  32A7S5DE6 32A8S53F3 32A9S533B 32AAS5B97 32ABS5B66 32ACS76E3 32ADS4F01 32AES8CC7 32AFS5354
  32B0S591C 32B1M33,36 32B2M33,37 32B3M33,38 32B4M33,39 32B5M34,30 32B6M34,31 32B7M34,32 32B8M34,33
  32B9M34,34 32BAM34,35 32BBM34,36 32BCM34,37 32BDM34,38 32BEM34,39 32BFM35,30 32C0M31,6708
  32C1M32,6708 32C2M33,6708 32C3M34,6708 32C4M35,6708 32C5M36,6708 32C6M37,6708 32C7M38,6708
  32C8M39,6708 32C9M31,30,6708 32CAM31,31,6708 32CBM31,32,6708 32CCM68,67 32CDM65,72,67 32CEM65,76
  32CFM6C,74,64 32D0S30A2 32D1S30A4 32D2S30A6 32D3S30A8 32D4S30AA 32D6S30AD 32D7S30AF 32D8S30B1
  32D9S30B3 32DAS30B5 32DBS30B7 32DCS30B9 32DDS30BB 32DES30BD 32DFS30BF 32E0S30C1 32E1S30C4
  32E2S30C6 32E3S30C8 32E4S30CA 32EAS30D2 32EBS30D5 32ECS30D8 32EDS30DB 32EES30DE 32F3S30E4
  32F4S30E6 32F5S30E8 32FBS30EF 32FFM4EE4,548C 3300M30A2,30D1,30FC,30C8 3301M30A2,30EB,30D5,30A1
  3302M30A2,30F3,30DA,30A2 3303M30A2,30FC,30EB 3304M30A4,30CB,30F3,30B0 3305M30A4,30F3,30C1
  3306M30A6,30A9,30F3 3307M30A8,30B9,30AF,30FC,30C9 3308M30A8,30FC,30AB,30FC 3309M30AA,30F3,30B9
  330AM30AA,30FC,30E0 330BM30AB,30A4,30EA 330CM30AB,30E9,30C3,30C8 330DM30AB,30ED,30EA,30FC
  330EM30AC,30ED,30F3 330FM30AC,30F3,30DE 3310M30AE,30AC 3311M30AE,30CB,30FC
  3312M30AD,30E5,30EA,30FC 3313M30AE,30EB,30C0,30FC 3314M30AD,30ED 3315M30AD,30ED,30B0,30E9,30E0
  3316M30AD,30ED,30E1,30FC,30C8,30EB 3317M30AD,30ED,30EF,30C3,30C8 3318M30B0,30E9,30E0
  3319M30B0,30E9,30E0,30C8,30F3 331AM30AF,30EB,30BC,30A4,30ED 331BM30AF,30ED,30FC,30CD
  331CM30B1,30FC,30B9 331DM30B3,30EB,30CA 331EM30B3,30FC,30DD 331FM30B5,30A4,30AF,30EB
  3320M30B5,30F3,30C1,30FC,30E0 3321M30B7,30EA,30F3,30B0 3322M30BB,30F3,30C1 3323M30BB,30F3,30C8
  3324M30C0,30FC,30B9 3325M30C7,30B7 3326M30C9,30EB 3327M30C8,30F3 3328M30CA,30CE
  3329M30CE,30C3,30C8 332AM30CF,30A4,30C4 332BM30D1,30FC,30BB,30F3,30C8 332CM30D1,30FC,30C4
  332DM30D0,30FC,30EC,30EB 332EM30D4,30A2,30B9,30C8,30EB 332FM30D4,30AF,30EB 3330M30D4,30B3
  3331M30D3,30EB 3332M30D5,30A1,30E9,30C3,30C9 3333M30D5,30A3,30FC,30C8
  3334M30D6,30C3,30B7,30A7,30EB 3335M30D5,30E9,30F3 3336M30D8,30AF,30BF,30FC,30EB 3337M30DA,30BD
  3338M30DA,30CB,30D2 3339M30D8,30EB,30C4 333AM30DA,30F3,30B9 333BM30DA,30FC,30B8
  333CM30D9,30FC,30BF 333DM30DD,30A4,30F3,30C8 333EM30DC,30EB,30C8 333FM30DB,30F3
  3340M30DD,30F3,30C9 3341M30DB,30FC,30EB 3342M30DB,30FC,30F3 3343M30DE,30A4,30AF,30ED
  3344M30DE,30A4,30EB 3345M30DE,30C3,30CF 3346M30DE,30EB,30AF 3347M30DE,30F3,30B7,30E7,30F3
  3348M30DF,30AF,30ED,30F3 3349M30DF,30EA 334AM30DF,30EA,30D0,30FC,30EB 334BM30E1,30AC
  334CM30E1,30AC,30C8,30F3 334DM30E1,30FC,30C8,30EB 334EM30E4,30FC,30C9 334FM30E4,30FC,30EB
  3350M30E6,30A2,30F3 3351M30EA,30C3,30C8,30EB 3352M30EA,30E9 3353M30EB,30D4,30FC
  3354M30EB,30FC,30D6,30EB 3355M30EC,30E0 3356M30EC,30F3,30C8,30B2,30F3 3357M30EF,30C3,30C8
  3358M30,70B9 3359M31,70B9 335AM32,70B9 335BM33,70B9 335CM34,70B9 335DM35,70B9 335EM36,70B9
  335FM37,70B9 3360M38,70B9 3361M39,70B9 3362M31,30,70B9 3363M31,31,70B9 3364M31,32,70B9
  3365M31,33,70B9 3366M31,34,70B9 3367M31,35,70B9 3368M31,36,70B9 3369M31,37,70B9 336AM31,38,70B9
  336BM31,39,70B9 336CM32,30,70B9 336DM32,31,70B9 336EM32,32,70B9 336FM32,33,70B9 3370M32,34,70B9
  3371M68,70,61 3372M64,61 3373M61,75 3374M62,61,72 3375M6F,76 3376M70,63 3377M64,6D 3378M64,6D,32
  3379M64,6D,33 337AM69,75 337BM5E73,6210 337CM662D,548C 337DM5927,6B63 337EM660E,6CBB
  337FM682A,5F0F,4F1A,793E 3380M70,61 3381M6E,61 3382M3BC,61 3383M6D,61 3384M6B,61 3385M6B,62
  3386M6D,62 3387M67,62 3388M63,61,6C 3389M6B,63,61,6C 338AM70,66 338BM6E,66 338CM3BC,66 338DM3BC,67
  338EM6D,67 338FM6B,67 3390M68,7A 3391M6B,68,7A 3392M6D,68,7A 3393M67,68,7A 3394M74,68,7A
  3395M3BC,6C 3396M6D,6C 3397M64,6C 3398M6B,6C 3399M66,6D 339AM6E,6D 339BM3BC,6D 339CM6D,6D
  339DM63,6D 339EM6B,6D 339FM6D,6D,32 33A0M63,6D,32 33A1M6D,32 33A2M6B,6D,32 33A3M6D,6D,33
  33A4M63,6D,33 33A5M6D,33 33A6M6B,6D,33 33A7M6D,2215,73 33A8M6D,2215,73,32 33A9M70,61 33AAM6B,70,61
  33ABM6D,70,61 33ACM67,70,61 33ADM72,61,64 33AEM72,61,64,2215,73 33AFM72,61,64,2215,73,32
  33B0M70,73 33B1M6E,73 33B2M3BC,73 33B3M6D,73 33B4M70,76 33B5M6E,76 33B6M3BC,76 33B7M6D,76
  33B8M6B,76 33B9M6D,76 33BAM70,77 33BBM6E,77 33BCM3BC,77 33BDM6D,77 33BEM6B,77 33BFM6D,77
  33C0M6B,3C9 33C1M6D,3C9 33C2X 33C3M62,71 33C4M63,63 33C5M63,64 33C6M63,2215,6B,67 33C7X 33C8M64,62
  33C9M67,79 33CAM68,61 33CBM68,70 33CCM69,6E 33CDM6B,6B 33CEM6B,6D 33CFM6B,74 33D0M6C,6D 33D1M6C,6E
  33D2M6C,6F,67 33D3M6C,78 33D4M6D,62 33D5M6D,69,6C 33D6M6D,6F,6C 33D7M70,68 33D8X 33D9M70,70,6D
  33DAM70,72 33DBM73,72 33DCM73,76 33DDM77,62 33DEM76,2215,6D 33DFM61,2215,6D 33E0M31,65E5
  33E1M32,65E5 33E2M33,65E5 33E3M34,65E5 33E4M35,65E5 33E5M36,65E5 33E6M37,65E5 33E7M38,65E5
  33E8M39,65E5 33E9M31,30,65E5 33EAM31,31,65E5 33EBM31,32,65E5 33ECM31,33,65E5 33EDM31,34,65E5
  33EEM31,35,65E5 33EFM31,36,65E5 33F0M31,37,65E5 33F1M31,38,65E5 33F2M31,39,65E5 33F3M32,30,65E5
  33F4M32,31,65E5 33F5M32,32,65E5 33F6M32,33,65E5 33F7M32,34,65E5 33F8M32,35,65E5 33F9M32,36,65E5
  33FAM32,37,65E5 33FBM32,38,65E5 33FCM32,39,65E5 33FDM33,30,65E5 33FEM33,31,65E5 33FFM67,61,6C
  3400V A48DX A490V A4C7X A4D0V A62CX A640P A66EV A680P A69CS44A A69DS44C A69EV A6F8X A700V A722P
  A730V A732P A770SA76F A771V A779P A77DS1D79 A77EP A788V A78BSA78C A78CV A78DS265 A78EV A790P A794V
  A796P A7AAS266 A7ABS25C A7ACS261 A7ADS26C A7AES26A A7AFV A7B0S29E A7B1S287 A7B2S29D A7B3SAB53
  A7B4P A7C4SA794 A7C5S282 A7C6S1D8E A7C7P A7CBS264 A7CCP A7DCS19B A7DDX A7F1S73 A7F2S63 A7F3S66
  A7F4S71 A7F5SA7F6 A7F6V A7F8S127 A7F9S153 A7FAV A82DX A830V A83AX A840V A878X A880V A8C6X A8CEV
  A8DAX A8E0V A954X A95FV A97DX A980V A9CEX A9CFV A9DAX A9DEV A9FFX AA00V AA37X AA40V AA4EX AA50V
  AA5AX AA5CV AAC3X AADBV AAF7X AB01V AB07X AB09V AB0FX AB11V AB17X AB20V AB27X AB28V AB2FX AB30V
  AB5CSA727 AB5DSAB37 AB5ES26B AB5FSAB52 AB60V AB69S28D AB6AV AB6CX AB70S13A0 ABC0V ABEEX ABF0V
  ABFAX AC00V D7A4X D7B0V D7C7X D7CBV D7FCX F900S8C48 F901S66F4 F902S8ECA F903S8CC8 F904S6ED1
  F905S4E32 F906S53E5 F907M9F9C F909S5951 F90AS91D1 F90BS5587 F90CS5948 F90DS61F6 F90ES7669
  F90FS7F85 F910S863F F911S87BA F912S88F8 F913S908F F914S6A02 F915S6D1B F916S70D9 F917S73DE
  F918S843D F919S916A F91AS99F1 F91BS4E82 F91CS5375 F91DS6B04 F91ES721B F91FS862D F920S9E1E
  F921S5D50 F922S6FEB F923S85CD F924S8964 F925S62C9 F926S81D8 F927S881F F928S5ECA F929S6717
  F92AS6D6A F92BS72FC F92CS90CE F92DS4F86 F92ES51B7 F92FS52DE F930S64C4 F931S6AD3 F932S7210
  F933S76E7 F934S8001 F935S8606 F936S865C F937S8DEF F938S9732 F939S9B6F F93AS9DFA F93BS788C
  F93CS797F F93DS7DA0 F93ES83C9 F93FS9304 F940S9E7F F941S8AD6 F942S58DF F943S5F04 F944S7C60
  F945S807E F946S7262 F947S78CA F948S8CC2 F949S96F7 F94AS58D8 F94BS5C62 F94CS6A13 F94DS6DDA
  F94ES6F0F F94FS7D2F F950S7E37 F951S964B F952S52D2 F953S808B F954S51DC F955S51CC F956S7A1C
  F957S7DBE F958S83F1 F959S9675 F95AS8B80 F95BS62CF F95CS6A02 F95DS8AFE F95ES4E39 F95FS5BE7
  F960S6012 F961S7387 F962S7570 F963S5317 F964S78FB F965S4FBF F966S5FA9 F967S4E0D F968S6CCC
  F969S6578 F96AS7D22 F96BS53C3 F96CS585E F96DS7701 F96ES8449 F96FS8AAA F970S6BBA F971S8FB0
  F972S6C88 F973S62FE F974S82E5 F975S63A0 F976S7565 F977S4EAE F978S5169 F979S51C9 F97AS6881
  F97BS7CE7 F97CS826F F97DS8AD2 F97ES91CF F97FS52F5 F980S5442 F981S5973 F982S5EEC F983S65C5
  F984S6FFE F985S792A F986S95AD F987S9A6A F988S9E97 F989S9ECE F98AS529B F98BS66C6 F98CS6B77
  F98DS8F62 F98ES5E74 F98FS6190 F990S6200 F991S649A F992S6F23 F993S7149 F994S7489 F995S79CA
  F996S7DF4 F997S806F F998S8F26 F999S84EE F99AS9023 F99BS934A F99CS5217 F99DS52A3 F99ES54BD
  F99FS70C8 F9A0S88C2 F9A1S8AAA F9A2S5EC9 F9A3S5FF5 F9A4S637B F9A5S6BAE F9A6S7C3E F9A7S7375
  F9A8S4EE4 F9A9S56F9 F9AAS5BE7 F9ABS5DBA F9ACS601C F9ADS73B2 F9AES7469 F9AFS7F9A F9B0S8046
  F9B1S9234 F9B2S96F6 F9B3S9748 F9B4S9818 F9B5S4F8B F9B6S79AE F9B7S91B4 F9B8S96B8 F9B9S60E1
  F9BAS4E86 F9BBS50DA F9BCS5BEE F9BDS5C3F F9BES6599 F9BFS6A02 F9C0S71CE F9C1S7642 F9C2S84FC
  F9C3S907C F9C4S9F8D F9C5S6688 F9C6S962E F9C7S5289 F9C8S677B F9C9S67F3 F9CAS6D41 F9CBS6E9C
  F9CCS7409 F9CDS7559 F9CES786B F9CFS7D10 F9D0S985E F9D1S516D F9D2S622E F9D3S9678 F9D4S502B
  F9D5S5D19 F9D6S6DEA F9D7S8F2A F9D8S5F8B F9D9S6144 F9DAS6817 F9DBS7387 F9DCS9686 F9DDS5229
  F9DES540F F9DFS5C65 F9E0S6613 F9E1S674E F9E2S68A8 F9E3S6CE5 F9E4S7406 F9E5S75E2 F9E6S7F79
  F9E7S88CF F9E8S88E1 F9E9S91CC F9EAS96E2 F9EBS533F F9ECS6EBA F9EDS541D F9EES71D0 F9EFS7498
  F9F0S85FA F9F1S96A3 F9F2S9C57 F9F3S9E9F F9F4S6797 F9F5S6DCB F9F6S81E8 F9F7S7ACB F9F8S7B20
  F9F9S7C92 F9FAS72C0 F9FBS7099 F9FCS8B58 F9FDS4EC0 F9FES8336 F9FFS523A FA00S5207 FA01S5EA6
  FA02S62D3 FA03S7CD6 FA04S5B85 FA05S6D1E FA06S66B4 FA07S8F3B FA08S884C FA09S964D FA0AS898B
  FA0BS5ED3 FA0CS5140 FA0DS55C0 FA0EV FA10S585A FA11V FA12S6674 FA13V FA15S51DE FA16S732A FA17S76CA
  FA18S793C FA19S795E FA1AS7965 FA1BS798F FA1CS9756 FA1DS7CBE FA1ES7FBD FA1FV FA20S8612 FA21V
  FA22S8AF8 FA23V FA25S9038 FA26S90FD FA27V FA2AS98EF FA2BS98FC FA2CS9928 FA2DS9DB4 FA2ES90DE
  FA2FS96B7 FA30S4FAE FA31S50E7 FA32S514D FA33S52C9 FA34S52E4 FA35S5351 FA36S559D FA37S5606
  FA38S5668 FA39S5840 FA3AS58A8 FA3BS5C64 FA3CS5C6E FA3DS6094 FA3ES6168 FA3FS618E FA40S61F2
  FA41S654F FA42S65E2 FA43S6691 FA44S6885 FA45S6D77 FA46S6E1A FA47S6F22 FA48S716E FA49S722B
  FA4AS7422 FA4BS7891 FA4CS793E FA4DS7949 FA4ES7948 FA4FS7950 FA50S7956 FA51S795D FA52S798D
  FA54S7A40 FA55S7A81 FA56S7BC0 FA57S7DF4 FA58S7E09 FA59S7E41 FA5AS7F72 FA5BS8005 FA5CS81ED
  FA5DM8279 FA5FS8457 FA60S8910 FA61S8996 FA62S8B01 FA63S8B39 FA64S8CD3 FA65S8D08 FA66S8FB6
  FA67S9038 FA68S96E3 FA69S97FF FA6AS983B FA6BS6075 FA6CS242EE FA6DS8218 FA6EX FA70S4E26 FA71S51B5
  FA72S5168 FA73S4F80 FA74S5145 FA75S5180 FA76S52C7 FA77S52FA FA78S559D FA79S5555 FA7AS5599
  FA7BS55E2 FA7CS585A FA7DS58B3 FA7ES5944 FA7FS5954 FA80S5A62 FA81S5B28 FA82S5ED2 FA83S5ED9
  FA84S5F69 FA85S5FAD FA86S60D8 FA87S614E FA88S6108 FA89S618E FA8AS6160 FA8BS61F2 FA8CS6234
  FA8DS63C4 FA8ES641C FA8FS6452 FA90S6556 FA91S6674 FA92S6717 FA93S671B FA94S6756 FA95S6B79
  FA96S6BBA FA97S6D41 FA98S6EDB FA99S6ECB FA9AS6F22 FA9BS701E FA9CS716E FA9DS77A7 FA9ES7235
  FA9FS72AF FAA0S732A FAA1S7471 FAA2S7506 FAA3S753B FAA4S761D FAA5S761F FAA6S76CA FAA7S76DB
  FAA8S76F4 FAA9S774A FAAAS7740 FAABS78CC FAACS7AB1 FAADS7BC0 FAAES7C7B FAAFS7D5B FAB0S7DF4
  FAB1S7F3E FAB2S8005 FAB3S8352 FAB4S83EF FAB5S8779 FAB6S8941 FAB7S8986 FAB8S8996 FAB9S8ABF
  FABAS8AF8 FABBS8ACB FABCS8B01 FABDS8AFE FABES8AED FABFS8B39 FAC0S8B8A FAC1S8D08 FAC2S8F38
  FAC3S9072 FAC4S9199 FAC5S9276 FAC6S967C FAC7S96E3 FAC8S9756 FAC9S97DB FACAS97FF FACBS980B
  FACCS983B FACDS9B12 FACES9F9C FACFS2284A FAD0S22844 FAD1S233D5 FAD2S3B9D FAD3S4018 FAD4S4039
  FAD5S25249 FAD6S25CD0 FAD7S27ED3 FAD8S9F43 FAD9S9F8E FADAX FB00M66,66 FB01M66,69 FB02M66,6C
  FB03M66,66,69 FB04M66,66,6C FB05M73,74 FB07X FB13M574,576 FB14M574,565 FB15M574,56B FB16M57E,576
  FB17M574,56D FB18X FB1DM5D9,5B4 FB1EV FB1FM5F2,5B7 FB20S5E2 FB21S5D0 FB22S5D3 FB24S5DB FB27S5E8
  FB28S5EA FB29S2B FB2AM5E9,5C1 FB2BM5E9,5C2 FB2CM5E9,5BC,5C1 FB2DM5E9,5BC,5C2 FB2EM5D0,5B7
  FB2FM5D0,5B8 FB30M5D0,5BC FB31M5D1,5BC FB32M5D2,5BC FB33M5D3,5BC FB34M5D4,5BC FB35M5D5,5BC
  FB36M5D6,5BC FB37X FB38M5D8,5BC FB39M5D9,5BC FB3AM5DA,5BC FB3BM5DB,5BC FB3CM5DC,5BC FB3DX
  FB3EM5DE,5BC FB3FX FB40M5E0,5BC FB41M5E1,5BC FB42X FB43M5E3,5BC FB44M5E4,5BC FB45X FB46M5E6,5BC
  FB47M5E7,5BC FB48M5E8,5BC FB49M5E9,5BC FB4AM5EA,5BC FB4BM5D5,5B9 FB4CM5D1,5BF FB4DM5DB,5BF
  FB4EM5E4,5BF FB4FM5D0,5DC FB50M671 FB52M67B FB56M67E FB5AM680 FB5EM67A FB62M67F FB66M679 FB6AM6A4
  FB6EM6A6 FB72M684 FB76M683 FB7AM686 FB7EM687 FB82M68D FB84M68C FB86M68E FB88M688 FB8AM698 FB8CM691
  FB8EM6A9 FB92M6AF FB96M6B3 FB9AM6B1 FB9EM6BA FBA0M6BB FBA4M6C0 FBA6M6C1 FBAAM6BE FBAEM6D2 FBB0M6D3
  FBB2V FBD3M6AD FBD7M6C7 FBD9M6C6 FBDBM6C8 FBDDM6C7,674 FBDEM6CB FBE0M6C5 FBE2M6C9 FBE4M6D0
  FBE8M649 FBEAM626,627 FBECM626,6D5 FBEEM626,648 FBF0M626,6C7 FBF2M626,6C6 FBF4M626,6C8
  FBF6M626,6D0 FBF9M626,649 FBFCM6CC FC00M626,62C FC01M626,62D FC02M626,645 FC03M626,649
  FC04M626,64A FC05M628,62C FC06M628,62D FC07M628,62E FC08M628,645 FC09M628,649 FC0AM628,64A
  FC0BM62A,62C FC0CM62A,62D FC0DM62A,62E FC0EM62A,645 FC0FM62A,649 FC10M62A,64A FC11M62B,62C
  FC12M62B,645 FC13M62B,649 FC14M62B,64A FC15M62C,62D FC16M62C,645 FC17M62D,62C FC18M62D,645
  FC19M62E,62C FC1AM62E,62D FC1BM62E,645 FC1CM633,62C FC1DM633,62D FC1EM633,62E FC1FM633,645
  FC20M635,62D FC21M635,645 FC22M636,62C FC23M636,62D FC24M636,62E FC25M636,645 FC26M637,62D
  FC27M637,645 FC28M638,645 FC29M639,62C FC2AM639,645 FC2BM63A,62C FC2CM63A,645 FC2DM641,62C
  FC2EM641,62D FC2FM641,62E FC30M641,645 FC31M641,649 FC32M641,64A FC33M642,62D FC34M642,645
  FC35M642,649 FC36M642,64A FC37M643,627 FC38M643,62C FC39M643,62D FC3AM643,62E FC3BM643,644
  FC3CM643,645 FC3DM643,649 FC3EM643,64A FC3FM644,62C FC40M644,62D FC41M644,62E FC42M644,645
  FC43M644,649 FC44M644,64A FC45M645,62C FC46M645,62D FC47M645,62E FC48M645,645 FC49M645,649
  FC4AM645,64A FC4BM646,62C FC4CM646,62D FC4DM646,62E FC4EM646,645 FC4FM646,649 FC50M646,64A
  FC51M647,62C FC52M647,645 FC53M647,649 FC54M647,64A FC55M64A,62C FC56M64A,62D FC57M64A,62E
  FC58M64A,645 FC59M64A,649 FC5AM64A,64A FC5BM630,670 FC5CM631,670 FC5DM649,670 FC5EM20,64C,651
  FC5FM20,64D,651 FC60M20,64E,651 FC61M20,64F,651 FC62M20,650,651 FC63M20,651,670 FC64M626,631
  FC65M626,632 FC66M626,645 FC67M626,646 FC68M626,649 FC69M626,64A FC6AM628,631 FC6BM628,632
  FC6CM628,645 FC6DM628,646 FC6EM628,649 FC6FM628,64A FC70M62A,631 FC71M62A,632 FC72M62A,645
  FC73M62A,646 FC74M62A,649 FC75M62A,64A FC76M62B,631 FC77M62B,632 FC78M62B,645 FC79M62B,646
  FC7AM62B,649 FC7BM62B,64A FC7CM641,649 FC7DM641,64A FC7EM642,649 FC7FM642,64A FC80M643,627
  FC81M643,644 FC82M643,645 FC83M643,649 FC84M643,64A FC85M644,645 FC86M644,649 FC87M644,64A
  FC88M645,627 FC89M645,645 FC8AM646,631 FC8BM646,632 FC8CM646,645 FC8DM646,646 FC8EM646,649
  FC8FM646,64A FC90M649,670 FC91M64A,631 FC92M64A,632 FC93M64A,645 FC94M64A,646 FC95M64A,649
  FC96M64A,64A FC97M626,62C FC98M626,62D FC99M626,62E FC9AM626,645 FC9BM626,647 FC9CM628,62C
  FC9DM628,62D FC9EM628,62E FC9FM628,645 FCA0M628,647 FCA1M62A,62C FCA2M62A,62D FCA3M62A,62E
  FCA4M62A,645 FCA5M62A,647 FCA6M62B,645 FCA7M62C,62D FCA8M62C,645 FCA9M62D,62C FCAAM62D,645
  FCABM62E,62C FCACM62E,645 FCADM633,62C FCAEM633,62D FCAFM633,62E FCB0M633,645 FCB1M635,62D
  FCB2M635,62E FCB3M635,645 FCB4M636,62C FCB5M636,62D FCB6M636,62E FCB7M636,645 FCB8M637,62D
  FCB9M638,645 FCBAM639,62C FCBBM639,645 FCBCM63A,62C FCBDM63A,645 FCBEM641,62C FCBFM641,62D
  FCC0M641,62E FCC1M641,645 FCC2M642,62D FCC3M642,645 FCC4M643,62C FCC5M643,62D FCC6M643,62E
  FCC7M643,644 FCC8M643,645 FCC9M644,62C FCCAM644,62D FCCBM644,62E FCCCM644,645 FCCDM644,647
  FCCEM645,62C FCCFM645,62D FCD0M645,62E FCD1M645,645 FCD2M646,62C FCD3M646,62D FCD4M646,62E
  FCD5M646,645 FCD6M646,647 FCD7M647,62C FCD8M647,645 FCD9M647,670 FCDAM64A,62C FCDBM64A,62D
  FCDCM64A,62E FCDDM64A,645 FCDEM64A,647 FCDFM626,645 FCE0M626,647 FCE1M628,645 FCE2M628,647
  FCE3M62A,645 FCE4M62A,647 FCE5M62B,645 FCE6M62B,647 FCE7M633,645 FCE8M633,647 FCE9M634,645
  FCEAM634,647 FCEBM643,644 FCECM643,645 FCEDM644,645 FCEEM646,645 FCEFM646,647 FCF0M64A,645
  FCF1M64A,647 FCF2M640,64E,651 FCF3M640,64F,651 FCF4M640,650,651 FCF5M637,649 FCF6M637,64A
  FCF7M639,649 FCF8M639,64A FCF9M63A,649 FCFAM63A,64A FCFBM633,649 FCFCM633,64A FCFDM634,649
  FCFEM634,64A FCFFM62D,649 FD00M62D,64A FD01M62C,649 FD02M62C,64A FD03M62E,649 FD04M62E,64A
  FD05M635,649 FD06M635,64A FD07M636,649 FD08M636,64A FD09M634,62C FD0AM634,62D FD0BM634,62E
  FD0CM634,645 FD0DM634,631 FD0EM633,631 FD0FM635,631 FD10M636,631 FD11M637,649 FD12M637,64A
  FD13M639,649 FD14M639,64A FD15M63A,649 FD16M63A,64A FD17M633,649 FD18M633,64A FD19M634,649
  FD1AM634,64A FD1BM62D,649 FD1CM62D,64A FD1DM62C,649 FD1EM62C,64A FD1FM62E,649 FD20M62E,64A
  FD21M635,649 FD22M635,64A FD23M636,649 FD24M636,64A FD25M634,62C FD26M634,62D FD27M634,62E
  FD28M634,645 FD29M634,631 FD2AM633,631 FD2BM635,631 FD2CM636,631 FD2DM634,62C FD2EM634,62D
  FD2FM634,62E FD30M634,645 FD31M633,647 FD32M634,647 FD33M637,645 FD34M633,62C FD35M633,62D
  FD36M633,62E FD37M634,62C FD38M634,62D FD39M634,62E FD3AM637,645 FD3BM638,645 FD3CM627,64B FD3EV
  FD50M62A,62C,645 FD51M62A,62D,62C FD53M62A,62D,645 FD54M62A,62E,645 FD55M62A,645,62C
  FD56M62A,645,62D FD57M62A,645,62E FD58M62C,645,62D FD5AM62D,645,64A FD5BM62D,645,649
  FD5CM633,62D,62C FD5DM633,62C,62D FD5EM633,62C,649 FD5FM633,645,62D FD61M633,645,62C
  FD62M633,645,645 FD64M635,62D,62D FD66M635,645,645 FD67M634,62D,645 FD69M634,62C,64A
  FD6AM634,645,62E FD6CM634,645,645 FD6EM636,62D,649 FD6FM636,62E,645 FD71M637,645,62D
  FD73M637,645,645 FD74M637,645,64A FD75M639,62C,645 FD76M639,645,645 FD78M639,645,649
  FD79M63A,645,645 FD7AM63A,645,64A FD7BM63A,645,649 FD7CM641,62E,645 FD7EM642,645,62D
  FD7FM642,645,645 FD80M644,62D,645 FD81M644,62D,64A FD82M644,62D,649 FD83M644,62C,62C
  FD85M644,62E,645 FD87M644,645,62D FD89M645,62D,62C FD8AM645,62D,645 FD8BM645,62D,64A
  FD8CM645,62C,62D FD8DM645,62C,645 FD8EM645,62E,62C FD8FM645,62E,645 FD90V FD92M645,62C,62E
  FD93M647,645,62C FD94M647,645,645 FD95M646,62D,645 FD96M646,62D,649 FD97M646,62C,645
  FD99M646,62C,649 FD9AM646,645,64A FD9BM646,645,649 FD9CM64A,645,645 FD9EM628,62E,64A
  FD9FM62A,62C,64A FDA0M62A,62C,649 FDA1M62A,62E,64A FDA2M62A,62E,649 FDA3M62A,645,64A
  FDA4M62A,645,649 FDA5M62C,645,64A FDA6M62C,62D,649 FDA7M62C,645,649 FDA8M633,62E,649
  FDA9M635,62D,64A FDAAM634,62D,64A FDABM636,62D,64A FDACM644,62C,64A FDADM644,645,64A
  FDAEM64A,62D,64A FDAFM64A,62C,64A FDB0M64A,645,64A FDB1M645,645,64A FDB2M642,645,64A
  FDB3M646,62D,64A FDB4M642,645,62D FDB5M644,62D,645 FDB6M639,645,64A FDB7M643,645,64A
  FDB8M646,62C,62D FDB9M645,62E,64A FDBAM644,62C,645 FDBBM643,645,645 FDBCM644,62C,645
  FDBDM646,62C,62D FDBEM62C,62D,64A FDBFM62D,62C,64A FDC0M645,62C,64A FDC1M641,645,64A
  FDC2M628,62D,64A FDC3M643,645,645 FDC4M639,62C,645 FDC5M635,645,645 FDC6M633,62E,64A
  FDC7M646,62C,64A FDC8V FDD0X FDF0M635,644,6D2 FDF1M642,644,6D2 FDF2M627,644,644,647
  FDF3M627,643,628,631 FDF4M645,62D,645,62F FDF5M635,644,639,645 FDF6M631,633,648,644
  FDF7M639,644,64A,647 FDF8M648,633,644,645 FDF9M635,644,649
  FDFAM635,644,649,20,627,644,644,647,20,639,644,64A,647,20,648,633,644,645
  FDFBM62C,644,20,62C,644,627,644,647 FDFCM631,6CC,627,644 FDFDV FE00I FE10S2C FE11S3001 FE12X
  FE13S3A FE15S21 FE16S3F FE17S3016 FE19X FE20V FE30X FE31S2014 FE32S2013 FE33M5F FE35S28 FE37S7B
  FE38S7D FE39S3014 FE3BS3010 FE3DS300A FE3FS3008 FE41S300C FE45V FE47S5B FE48S5D FE49M20,305
  FE4DM5F FE50S2C FE51S3001 FE52X FE54S3B FE55S3A FE56S3F FE57S21 FE58S2014 FE59S28 FE5BS7B FE5CS7D
  FE5DS3014 FE5FS23 FE60S26 FE61S2A FE63S2D FE64S3C FE65S3E FE66S3D FE67X FE68S5C FE69S24 FE6BS40
  FE6CX FE70M20,64B FE71M640,64B FE72M20,64C FE73V FE74M20,64D FE75X FE76M20,64E FE77M640,64E
  FE78M20,64F FE79M640,64F FE7AM20,650 FE7BM640,650 FE7CM20,651 FE7DM640,651 FE7EM20,652
  FE7FM640,652 FE80S621 FE82S622 FE84S623 FE86S624 FE88S625 FE8AM626 FE8DM627 FE8FM628 FE93M629
  FE95M62A FE99M62B FE9DM62C FEA1M62D FEA5M62E FEA9M62F FEABM630 FEADM631 FEAFM632 FEB1M633 FEB5M634
  FEB9M635 FEBDM636 FEC1M637 FEC5M638 FEC9M639 FECDM63A FED1M641 FED5M642 FED9M643 FEDDM644 FEE1M645
  FEE5M646 FEE9M647 FEEDM648 FEEFM649 FEF1M64A FEF5M644,622 FEF7M644,623 FEF9M644,625 FEFBM644,627
  FEFDX FEFFI FF00X FF01S21 FF21S61 FF3BS5B FF5FS2985 FF61S2E FF62S300C FF64S3001 FF65S30FB
  FF66S30F2 FF67S30A1 FF68S30A3 FF69S30A5 FF6AS30A7 FF6BS30A9 FF6CS30E3 FF6DS30E5 FF6ES30E7
  FF6FS30C3 FF70S30FC FF71S30A2 FF72S30A4 FF73S30A6 FF74S30A8 FF75S30AA FF77S30AD FF78S30AF
  FF79S30B1 FF7AS30B3 FF7BS30B5 FF7CS30B7 FF7DS30B9 FF7ES30BB FF7FS30BD FF80S30BF FF81S30C1
  FF82S30C4 FF83S30C6 FF84S30C8 FF85S30CA FF8BS30D2 FF8CS30D5 FF8DS30D8 FF8ES30DB FF8FS30DE
  FF94S30E4 FF95S30E6 FF96S30E8 FF9CS30EF FF9DS30F3 FF9ES3099 FFA0I FFA1S1100 FFA3S11AA FFA4S1102
  FFA5S11AC FFA7S1103 FFAAS11B0 FFB0S111A FFB1S1106 FFB4S1121 FFB5S1109 FFBFX FFC2S1161 FFC8X
  FFCAS1167 FFD0X FFD2S116D FFD8X FFDAS1173 FFDDX FFE0SA2 FFE2SAC FFE3M20,304 FFE4SA6 FFE5SA5
  FFE6S20A9 FFE7X FFE8S2502 FFE9S2190 FFEDS25A0 FFEES25CB FFEFX 10000V 1000CX 1000DV 10027X 10028V
  1003BX 1003CV 1003EX 1003FV 1004EX 10050V 1005EX 10080V 100FBX 10100V 10103X 10107V 10134X 10137V
  1018FX 10190V 1019DX 101A0V 101A1X 101D0V 101FEX 10280V 1029DX 102A0V 102D1X 102E0V 102FCX 10300V
  10324X 1032DV 1034BX 10350V 1037BX 10380V 1039EX 1039FV 103C4X 103C8V 103D6X 10400S10428 10428V
  1049EX 104A0V 104AAX 104B0S104D8 104D4X 104D8V 104FCX 10500V 10528X 10530V 10564X 1056FV
  10570S10597 1057BX 1057CS105A3 1058BX 1058CS105B3 10593X 10594S105BB 10596X 10597V 105A2X 105A3V
  105B2X 105B3V 105BAX 105BBV 105BDX 105C0V 105F4X 10600V 10737X 10740V 10756X 10760V 10768X 10780V
  10781S2D0 10783SE6 10784S299 10785S253 10786X 10787S2A3 10788SAB66 10789S2A5 1078AS2A4 1078BS256
  1078DS1D91 1078ES258 1078FS25E 10790S2A9 10791S264 10792S262 10793S260 10794S29B 10795S127
  10796S29C 10797S267 10798S284 10799S2AA 1079BS26C 1079CS1DF04 1079DSA78E 1079ES26E 1079FS1DF05
  107A0S28E 107A1S1DF06 107A2SF8 107A3S276 107A5S71 107A6S27A 107A7S1DF08 107A8S27D 107AAS280
  107ABS2A8 107ACS2A6 107ADSAB67 107AES2A7 107AFS288 107B0S2C71 107B1X 107B2S28F 107B3S2A1 107B5S298
  107B6S1C0 107B9S1DF0A 107BAS1DF1E 107BBX 10800V 10806X 10808V 10809X 1080AV 10836X 10837V 10839X
  1083CV 1083DX 1083FV 10856X 10857V 1089FX 108A7V 108B0X 108E0V 108F3X 108F4V 108F6X 108FBV 1091CX
  1091FV 1093AX 1093FV 1095AX 10980V 109B8X 109BCV 109D0X 109D2V 10A04X 10A05V 10A07X 10A0CV 10A14X
  10A15V 10A18X 10A19V 10A36X 10A38V 10A3BX 10A3FV 10A49X 10A50V 10A59X 10A60V 10AA0X 10AC0V 10AE7X
  10AEBV 10AF7X 10B00V 10B36X 10B39V 10B56X 10B58V 10B73X 10B78V 10B92X 10B99V 10B9DX 10BA9V 10BB0X
  10C00V 10C49X 10C80S10CC0 10CB3X 10CC0V 10CF3X 10CFAV 10D28X 10D30V 10D3AX 10D40V 10D50S10D70
  10D66X 10D69V 10D86X 10D8EV 10D90X 10E60V 10E7FX 10E80V 10EAAX 10EABV 10EAEX 10EB0V 10EB2X 10EC2V
  10EC8X 10ED0V 10ED9X 10EFAV 10F28X 10F30V 10F5AX 10F70V 10F8AX 10FB0V 10FCCX 10FE0V 10FF7X 11000V
  1104EX 11052V 11076X 1107FV 110BDX 110BEV 110C3X 110D0V 110E9X 110F0V 110FAX 11100V 11135X 11136V
  11148X 11150V 11177X 11180V 111E0X 111E1V 111F5X 11200V 11212X 11213V 11242X 11280V 11287X 11288V
  11289X 1128AV 1128EX 1128FV 1129EX 1129FV 112AAX 112B0V 112EBX 112F0V 112FAX 11300V 11304X 11305V
  1130DX 1130FV 11311X 11313V 11329X 1132AV 11331X 11332V 11334X 11335V 1133AX 1133BV 11345X 11347V
  11349X 1134BV 1134EX 11350V 11351X 11357V 11358X 1135DV 11364X 11366V 1136DX 11370V 11375X 11380V
  1138AX 1138BV 1138CX 1138EV 1138FX 11390V 113B6X 113B7V 113C1X 113C2V 113C3X 113C5V 113C6X 113C7V
  113CBX 113CCV 113D6X 113D7V 113D9X 113E1V 113E3X 11400V 1145CX 1145DV 11462X 11480V 114C8X 114D0V
  114DAX 11580V 115B6X 115B8V 115DEX 11600V 11645X 11650V 1165AX 11660V 1166DX 11680V 116BAX 116C0V
  116CAX 116D0V 116E4X 11700V 1171BX 1171DV 1172CX 11730V 11747X 11800V 1183CX 118A0S118C0 118C0V
  118F3X 118FFV 11907X 11909V 1190AX 1190CV 11914X 11915V 11917X 11918V 11936X 11937V 11939X 1193BV
  11947X 11950V 1195AX 119A0V 119A8X 119AAV 119D8X 119DAV 119E5X 11A00V 11A48X 11A50V 11AA3X 11AB0V
  11AF9X 11B00V 11B0AX 11B60V 11B68X 11BC0V 11BE2X 11BF0V 11BFAX 11C00V 11C09X 11C0AV 11C37X 11C38V
  11C46X 11C50V 11C6DX 11C70V 11C90X 11C92V 11CA8X 11CA9V 11CB7X 11D00V 11D07X 11D08V 11D0AX 11D0BV
  11D37X 11D3AV 11D3BX 11D3CV 11D3EX 11D3FV 11D48X 11D50V 11D5AX 11D60V 11D66X 11D67V 11D69X 11D6AV
  11D8FX 11D90V 11D92X 11D93V 11D99X 11DA0V 11DAAX 11DB0V 11DDCX 11DE0V 11DEAX 11EE0V 11EF9X 11F00V
  11F11X 11F12V 11F3BX 11F3EV 11F5BX 11FB0V 11FB1X 11FC0V 11FF2X 11FFFV 1239AX 12400V 1246FX 12470V
  12475X 12480V 12544X 12F90V 12FF3X 13000V 13430X 13440V 13456X 13460V 143FBX 14400V 14647X 16100V
  1613AX 16800V 16A39X 16A40V 16A5FX 16A60V 16A6AX 16A6EV 16ABFX 16AC0V 16ACAX 16AD0V 16AEEX 16AF0V
  16AF6X 16B00V 16B46X 16B50V 16B5AX 16B5BV 16B62X 16B63V 16B78X 16B7DV 16B90X 16D40V 16D7AX
  16E40S16E60 16E60V 16E9BX 16EA0S16EBB 16EB9X 16EBBV 16ED4X 16F00V 16F4BX 16F4FV 16F88X 16F8FV
  16FA0X 16FE0V 16FE5X 16FF0V 16FF7X 17000V 18CD6X 18CFFV 18D1FX 18D80V 18DF3X 1AFF0V 1AFF4X 1AFF5V
  1AFFCX 1AFFDV 1AFFFX 1B000V 1B123X 1B132V 1B133X 1B150V 1B153X 1B155V 1B156X 1B164V 1B168X 1B170V
  1B2FCX 1BC00V 1BC6BX 1BC70V 1BC7DX 1BC80V 1BC89X 1BC90V 1BC9AX 1BC9CV 1BCA0I 1BCA4X 1CC00V
  1CCD6S61 1CCF0S30 1CCFAV 1CCFDX 1CD00V 1CEB4X 1CEBAV 1CED1X 1CEE0V 1CEF1X 1CF00V 1CF2EX 1CF30V
  1CF47X 1CF50V 1CFC4X 1D000V 1D0F6X 1D100V 1D127X 1D129V 1D15EM1D157,1D165 1D15FM1D158,1D165
  1D160M1D158,1D165,1D16E 1D161M1D158,1D165,1D16F 1D162M1D158,1D165,1D170 1D163M1D158,1D165,1D171
  1D164M1D158,1D165,1D172 1D165V 1D173I 1D17BV 1D1BBM1D1B9,1D165 1D1BCM1D1BA,1D165
  1D1BDM1D1B9,1D165,1D16E 1D1BEM1D1BA,1D165,1D16E 1D1BFM1D1B9,1D165,1D16F 1D1C0M1D1BA,1D165,1D16F
  1D1C1V 1D1EBX 1D200V 1D246X 1D2C0V 1D2D4X 1D2E0V 1D2F4X 1D300V 1D357X 1D360V 1D379X 1D400S61
  1D41AS61 1D434S61 1D44ES61 1D455X 1D456S69 1D468S61 1D482S61 1D49CS61 1D49DX 1D49ES63 1D4A0X
  1D4A2S67 1D4A3X 1D4A5S6A 1D4A7X 1D4A9S6E 1D4ADX 1D4AES73 1D4B6S61 1D4BAX 1D4BBS66 1D4BCX 1D4BDS68
  1D4C4X 1D4C5S70 1D4D0S61 1D4EAS61 1D504S61 1D506X 1D507S64 1D50BX 1D50DS6A 1D515X 1D516S73 1D51DX
  1D51ES61 1D538S61 1D53AX 1D53BS64 1D53FX 1D540S69 1D545X 1D546S6F 1D547X 1D54AS73 1D551X 1D552S61
  1D56CS61 1D586S61 1D5A0S61 1D5BAS61 1D5D4S61 1D5EES61 1D608S61 1D622S61 1D63CS61 1D656S61 1D670S61
  1D68AS61 1D6A4S131 1D6A5S237 1D6A6X 1D6A8S3B1 1D6B9S3B8 1D6BAS3C3 1D6C1S2207 1D6C2S3B1 1D6D3M3C3
  1D6D5S3C4 1D6DBS2202 1D6DCS3B5 1D6DDS3B8 1D6DES3BA 1D6DFS3C6 1D6E0S3C1 1D6E1S3C0 1D6E2S3B1
  1D6F3S3B8 1D6F4S3C3 1D6FBS2207 1D6FCS3B1 1D70DM3C3 1D70FS3C4 1D715S2202 1D716S3B5 1D717S3B8
  1D718S3BA 1D719S3C6 1D71AS3C1 1D71BS3C0 1D71CS3B1 1D72DS3B8 1D72ES3C3 1D735S2207 1D736S3B1
  1D747M3C3 1D749S3C4 1D74FS2202 1D750S3B5 1D751S3B8 1D752S3BA 1D753S3C6 1D754S3C1 1D755S3C0
  1D756S3B1 1D767S3B8 1D768S3C3 1D76FS2207 1D770S3B1 1D781M3C3 1D783S3C4 1D789S2202 1D78AS3B5
  1D78BS3B8 1D78CS3BA 1D78DS3C6 1D78ES3C1 1D78FS3C0 1D790S3B1 1D7A1S3B8 1D7A2S3C3 1D7A9S2207
  1D7AAS3B1 1D7BBM3C3 1D7BDS3C4 1D7C3S2202 1D7C4S3B5 1D7C5S3B8 1D7C6S3BA 1D7C7S3C6 1D7C8S3C1
  1D7C9S3C0 1D7CAM3DD 1D7CCX 1D7CES30 1D7D8S30 1D7E2S30 1D7ECS30 1D7F6S30 1D800V 1DA8CX 1DA9BV
  1DAA0X 1DAA1V 1DAB0X 1DF00V 1DF1FX 1DF25V 1DF2BX 1E000V 1E007X 1E008V 1E019X 1E01BV 1E022X 1E023V
  1E025X 1E026V 1E02BX 1E030S430 1E039S43A 1E03CS43E 1E047S44B 1E048S44D 1E04ASA689 1E04BS4D9
  1E04CS456 1E04DS458 1E04ES4E9 1E04FS4AF 1E050S4CF 1E051S430 1E05AS43A 1E05CS43E 1E05ES441
  1E05FS443 1E065S44A 1E067S491 1E068S456 1E069S455 1E06AS45F 1E06BS4AB 1E06CSA651 1E06DS4B1 1E06EX
  1E08FV 1E090X 1E100V 1E12DX 1E130V 1E13EX 1E140V 1E14AX 1E14EV 1E150X 1E290V 1E2AFX 1E2C0V 1E2FAX
  1E2FFV 1E300X 1E4D0V 1E4FAX 1E5D0V 1E5FBX 1E5FFV 1E600X 1E6C0V 1E6DFX 1E6E0V 1E6F6X 1E6FEV 1E700X
  1E7E0V 1E7E7X 1E7E8V 1E7ECX 1E7EDV 1E7EFX 1E7F0V 1E7FFX 1E800V 1E8C5X 1E8C7V 1E8D7X 1E900S1E922
  1E922V 1E94CX 1E950V 1E95AX 1E95EV 1E960X 1EC71V 1ECB5X 1ED01V 1ED3EX 1EE00S627 1EE02S62C
  1EE03S62F 1EE04X 1EE05S648 1EE06S632 1EE07S62D 1EE08S637 1EE09S64A 1EE0AS643 1EE0ES633 1EE0FS639
  1EE10S641 1EE11S635 1EE12S642 1EE13S631 1EE14S634 1EE15S62A 1EE17S62E 1EE18S630 1EE19S636
  1EE1AS638 1EE1BS63A 1EE1CS66E 1EE1DS6BA 1EE1ES6A1 1EE1FS66F 1EE20X 1EE21S628 1EE22S62C 1EE23X
  1EE24S647 1EE25X 1EE27S62D 1EE28X 1EE29S64A 1EE2AS643 1EE2ES633 1EE2FS639 1EE30S641 1EE31S635
  1EE32S642 1EE33X 1EE34S634 1EE35S62A 1EE37S62E 1EE38X 1EE39S636 1EE3AX 1EE3BS63A 1EE3CX 1EE42S62C
  1EE43X 1EE47S62D 1EE48X 1EE49S64A 1EE4AX 1EE4BS644 1EE4CX 1EE4DS646 1EE4ES633 1EE4FS639 1EE50X
  1EE51S635 1EE52S642 1EE53X 1EE54S634 1EE55X 1EE57S62E 1EE58X 1EE59S636 1EE5AX 1EE5BS63A 1EE5CX
  1EE5DS6BA 1EE5EX 1EE5FS66F 1EE60X 1EE61S628 1EE62S62C 1EE63X 1EE64S647 1EE65X 1EE67S62D 1EE68S637
  1EE69S64A 1EE6AS643 1EE6BX 1EE6CS645 1EE6ES633 1EE6FS639 1EE70S641 1EE71S635 1EE72S642 1EE73X
  1EE74S634 1EE75S62A 1EE77S62E 1EE78X 1EE79S636 1EE7AS638 1EE7BS63A 1EE7CS66E 1EE7DX 1EE7ES6A1
  1EE7FX 1EE80S627 1EE82S62C 1EE83S62F 1EE84S647 1EE86S632 1EE87S62D 1EE88S637 1EE89S64A 1EE8AX
  1EE8BS644 1EE8ES633 1EE8FS639 1EE90S641 1EE91S635 1EE92S642 1EE93S631 1EE94S634 1EE95S62A
  1EE97S62E 1EE98S630 1EE99S636 1EE9AS638 1EE9BS63A 1EE9CX 1EEA1S628 1EEA2S62C 1EEA3S62F 1EEA4X
  1EEA5S648 1EEA6S632 1EEA7S62D 1EEA8S637 1EEA9S64A 1EEAAX 1EEABS644 1EEAES633 1EEAFS639 1EEB0S641
  1EEB1S635 1EEB2S642 1EEB3S631 1EEB4S634 1EEB5S62A 1EEB7S62E 1EEB8S630 1EEB9S636 1EEBAS638
  1EEBBS63A 1EEBCX 1EEF0V 1EEF2X 1F000V 1F02CX 1F030V 1F094X 1F0A0V 1F0AFX 1F0B1V 1F0C0X 1F0C1V
  1F0D0X 1F0D1V 1F0F6X 1F101M30,2C 1F102M31,2C 1F103M32,2C 1F104M33,2C 1F105M34,2C 1F106M35,2C
  1F107M36,2C 1F108M37,2C 1F109M38,2C 1F10AM39,2C 1F10BV 1F110M28,61,29 1F111M28,62,29
  1F112M28,63,29 1F113M28,64,29 1F114M28,65,29 1F115M28,66,29 1F116M28,67,29 1F117M28,68,29
  1F118M28,69,29 1F119M28,6A,29 1F11AM28,6B,29 1F11BM28,6C,29 1F11CM28,6D,29 1F11DM28,6E,29
  1F11EM28,6F,29 1F11FM28,70,29 1F120M28,71,29 1F121M28,72,29 1F122M28,73,29 1F123M28,74,29
  1F124M28,75,29 1F125M28,76,29 1F126M28,77,29 1F127M28,78,29 1F128M28,79,29 1F129M28,7A,29
  1F12AM3014,73,3015 1F12BS63 1F12CS72 1F12DM63,64 1F12EM77,7A 1F12FV 1F130S61 1F14AM68,76
  1F14BM6D,76 1F14CM73,64 1F14DM73,73 1F14EM70,70,76 1F14FM77,63 1F150V 1F16AM6D,63 1F16BM6D,64
  1F16CM6D,72 1F16DV 1F190M64,6A 1F191V 1F1AEX 1F1E6V 1F200M307B,304B 1F201M30B3,30B3 1F202S30B5
  1F203X 1F210S624B 1F211S5B57 1F212S53CC 1F213S30C7 1F214S4E8C 1F215S591A 1F216S89E3 1F217S5929
  1F218S4EA4 1F219S6620 1F21AS7121 1F21BS6599 1F21CS524D 1F21DS5F8C 1F21ES518D 1F21FS65B0 1F220S521D
  1F221S7D42 1F222S751F 1F223S8CA9 1F224S58F0 1F225S5439 1F226S6F14 1F227S6295 1F228S6355 1F229S4E00
  1F22AS4E09 1F22BS904A 1F22CS5DE6 1F22DS4E2D 1F22ES53F3 1F22FS6307 1F230S8D70 1F231S6253 1F232S7981
  1F233S7A7A 1F234S5408 1F235S6E80 1F236S6709 1F237S6708 1F238S7533 1F239S5272 1F23AS55B6 1F23BS914D
  1F23CX 1F240M3014,672C,3015 1F241M3014,4E09,3015 1F242M3014,4E8C,3015 1F243M3014,5B89,3015
  1F244M3014,70B9,3015 1F245M3014,6253,3015 1F246M3014,76D7,3015 1F247M3014,52DD,3015
  1F248M3014,6557,3015 1F249X 1F250S5F97 1F251S53EF 1F252X 1F260V 1F266X 1F300V 1F6D9X 1F6DCV 1F6EDX
  1F6F0V 1F6FDX 1F700V 1F7DAX 1F7E0V 1F7ECX 1F7F0V 1F7F1X 1F800V 1F80CX 1F810V 1F848X 1F850V 1F85AX
  1F860V 1F888X 1F890V 1F8AEX 1F8B0V 1F8BCX 1F8C0V 1F8C2X 1F8D0V 1F8D9X 1F900V 1FA58X 1FA60V 1FA6EX
  1FA70V 1FA7DX 1FA80V 1FA8BX 1FA8EV 1FAC7X 1FAC8V 1FAC9X 1FACDV 1FADDX 1FADFV 1FAEBX 1FAEFV 1FAF9X
  1FB00V 1FB93X 1FB94V 1FBF0S30 1FBFAV 1FBFBX 20000V 2A6E0X 2A700V 2B81EX 2B820V 2CEAEX 2CEB0V
  2EBE1X 2EBF0V 2EE5EX 2F800S4E3D 2F801S4E38 2F802S4E41 2F803S20122 2F804S4F60 2F805S4FAE 2F806S4FBB
  2F807S5002 2F808S507A 2F809S5099 2F80AS50E7 2F80BS50CF 2F80CS349E 2F80DS2063A 2F80ES514D
  2F80FS5154 2F810S5164 2F811S5177 2F812S2051C 2F813S34B9 2F814S5167 2F815S518D 2F816S2054B
  2F817S5197 2F818S51A4 2F819S4ECC 2F81AS51AC 2F81BS51B5 2F81CS291DF 2F81DS51F5 2F81ES5203
  2F81FS34DF 2F820S523B 2F821S5246 2F822S5272 2F823S5277 2F824S3515 2F825S52C7 2F826S52C9 2F827S52E4
  2F828S52FA 2F829S5305 2F82BS5317 2F82CS5349 2F82DS5351 2F82ES535A 2F82FS5373 2F830S537D 2F831M537F
  2F834S20A2C 2F835S7070 2F836S53CA 2F837S53DF 2F838S20B63 2F839S53EB 2F83AS53F1 2F83BS5406
  2F83CS549E 2F83DS5438 2F83ES5448 2F83FS5468 2F840S54A2 2F841S54F6 2F842S5510 2F843S5553 2F844S5563
  2F845M5584 2F847S5599 2F848S55AB 2F849S55B3 2F84AS55C2 2F84BS5716 2F84CS5606 2F84DS5717 2F84ES5651
  2F84FS5674 2F850S5207 2F851S58EE 2F852S57CE 2F853S57F4 2F854S580D 2F855S578B 2F856S5832 2F857S5831
  2F858S58AC 2F859S214E4 2F85AS58F2 2F85BS58F7 2F85CS5906 2F85DS591A 2F85ES5922 2F85FS5962
  2F860S216A8 2F861S216EA 2F862S59EC 2F863S5A1B 2F864S5A27 2F865S59D8 2F866S5A66 2F867S36EE
  2F868S36FC 2F869S5B08 2F86AM5B3E 2F86CS219C8 2F86DS5BC3 2F86ES5BD8 2F86FS5BE7 2F870S5BF3
  2F871S21B18 2F872S5BFF 2F873S5C06 2F874S5F53 2F875S5C22 2F876S3781 2F877S5C60 2F878S5C6E
  2F879S5CC0 2F87AS5C8D 2F87BS21DE4 2F87CS5D43 2F87DS21DE6 2F87ES5D6E 2F87FS5D6B 2F880S5D7C
  2F881S5DE1 2F883S382F 2F884S5DFD 2F885S5E28 2F886S5E3D 2F887S5E69 2F888S3862 2F889S22183
  2F88AS387C 2F88BS5EB0 2F88CS5EB3 2F88DS5EB6 2F88ES5ECA 2F88FS2A392 2F890S5EFE 2F891M22331
  2F893S8201 2F894M5F22 2F896S38C7 2F897S232B8 2F898S261DA 2F899S5F62 2F89AS5F6B 2F89BS38E3
  2F89CS5F9A 2F89DS5FCD 2F89ES5FD7 2F89FS5FF9 2F8A0S6081 2F8A1S393A 2F8A2S391C 2F8A3S6094
  2F8A4S226D4 2F8A5S60C7 2F8A6S6148 2F8A7S614C 2F8A8S614E 2F8A9S614C 2F8AAS617A 2F8ABS618E
  2F8ACS61B2 2F8ADS61A4 2F8AES61AF 2F8AFS61DE 2F8B0S61F2 2F8B1S61F6 2F8B2S6210 2F8B3S621B 2F8B4S625D
  2F8B5S62B1 2F8B6S62D4 2F8B7S6350 2F8B8S22B0C 2F8B9S633D 2F8BAS62FC 2F8BBS6368 2F8BCS6383
  2F8BDS63E4 2F8BES22BF1 2F8BFS6422 2F8C0S63C5 2F8C1S63A9 2F8C2S3A2E 2F8C3S6469 2F8C4S647E
  2F8C5S649D 2F8C6S6477 2F8C7S3A6C 2F8C8S654F 2F8C9S656C 2F8CAS2300A 2F8CBS65E3 2F8CCS66F8
  2F8CDS6649 2F8CES3B19 2F8CFS6691 2F8D0S3B08 2F8D1S3AE4 2F8D2S5192 2F8D3S5195 2F8D4S6700 2F8D5S669C
  2F8D6S80AD 2F8D7S43D9 2F8D8S6717 2F8D9S671B 2F8DAS6721 2F8DBS675E 2F8DCS6753 2F8DDS233C3
  2F8DES3B49 2F8DFS67FA 2F8E0S6785 2F8E1S6852 2F8E2S6885 2F8E3S2346D 2F8E4S688E 2F8E5S681F
  2F8E6S6914 2F8E7S3B9D 2F8E8S6942 2F8E9S69A3 2F8EAS69EA 2F8EBS6AA8 2F8ECS236A3 2F8EDS6ADB
  2F8EES3C18 2F8EFS6B21 2F8F0S238A7 2F8F1S6B54 2F8F2S3C4E 2F8F3S6B72 2F8F4S6B9F 2F8F5S6BBA
  2F8F7S23A8D 2F8F8S21D0B 2F8F9S23AFA 2F8FAS6C4E 2F8FBS23CBC 2F8FCS6CBF 2F8FDS6CCD 2F8FES6C67
  2F8FFS6D16 2F900S6D3E 2F901S6D77 2F902S6D41 2F903S6D69 2F904S6D78 2F905S6D85 2F906S23D1E
  2F907S6D34 2F908S6E2F 2F909S6E6E 2F90AS3D33 2F90BS6ECB 2F90CS6EC7 2F90DS23ED1 2F90ES6DF9
  2F90FS6F6E 2F910S23F5E 2F911S23F8E 2F912S6FC6 2F913S7039 2F914S701E 2F915S701B 2F916S3D96
  2F917S704A 2F918S707D 2F919S7077 2F91AS70AD 2F91BS20525 2F91CS7145 2F91DS24263 2F91ES719C
  2F91FS243AB 2F920S7228 2F921S7235 2F922S7250 2F923S24608 2F924S7280 2F925S7295 2F926S24735
  2F927S24814 2F928S737A 2F929S738B 2F92AS3EAC 2F92BS73A5 2F92CM3EB8 2F92ES7447 2F92FS745C
  2F930S7471 2F931S7485 2F932S74CA 2F933S3F1B 2F934S7524 2F935S24C36 2F936S753E 2F937S24C92
  2F938S7570 2F939S2219F 2F93AS7610 2F93BS24FA1 2F93CS24FB8 2F93DS25044 2F93ES3FFC 2F93FS4008
  2F940S76F4 2F941S250F3 2F942S250F2 2F943S25119 2F944S25133 2F945S771E 2F947S771F 2F948S774A
  2F949S4039 2F94AS778B 2F94BS4046 2F94CS4096 2F94DS2541D 2F94ES784E 2F94FS788C 2F950S78CC
  2F951S40E3 2F952S25626 2F953S7956 2F954S2569A 2F955S256C5 2F956S798F 2F957S79EB 2F958S412F
  2F959S7A40 2F95AS7A4A 2F95BS7A4F 2F95CS2597C 2F95DM25AA7 2F95FS7AEE 2F960S4202 2F961S25BAB
  2F962S7BC6 2F963S7BC9 2F964S4227 2F965S25C80 2F966S7CD2 2F967S42A0 2F968S7CE8 2F969S7CE3
  2F96AS7D00 2F96BS25F86 2F96CS7D63 2F96DS4301 2F96ES7DC7 2F96FS7E02 2F970S7E45 2F971S4334
  2F972S26228 2F973S26247 2F974S4359 2F975S262D9 2F976S7F7A 2F977S2633E 2F978S7F95 2F979S7FFA
  2F97AS8005 2F97BS264DA 2F97CS26523 2F97DS8060 2F97ES265A8 2F97FS8070 2F980S2335F 2F981S43D5
  2F982S80B2 2F983S8103 2F984S440B 2F985S813E 2F986S5AB5 2F987S267A7 2F988S267B5 2F989S23393
  2F98AS2339C 2F98BS8201 2F98CS8204 2F98DS8F9E 2F98ES446B 2F98FS8291 2F990S828B 2F991S829D
  2F992S52B3 2F993S82B1 2F994S82B3 2F995S82BD 2F996S82E6 2F997S26B3C 2F998S82E5 2F999S831D
  2F99AS8363 2F99BS83AD 2F99CS8323 2F99DS83BD 2F99ES83E7 2F99FS8457 2F9A0S8353 2F9A1S83CA 2F9A2S83CC
  2F9A3S83DC 2F9A4S26C36 2F9A5S26D6B 2F9A6S26CD5 2F9A7S452B 2F9A8S84F1 2F9A9S84F3 2F9AAS8516
  2F9ABS273CA 2F9ACS8564 2F9ADS26F2C 2F9AES455D 2F9AFS4561 2F9B0S26FB1 2F9B1S270D2 2F9B2S456B
  2F9B3S8650 2F9B4S865C 2F9B5S8667 2F9B6S8669 2F9B7S86A9 2F9B8S8688 2F9B9S870E 2F9BAS86E2 2F9BBS8779
  2F9BCS8728 2F9BDS876B 2F9BES8786 2F9BFS45D7 2F9C0S87E1 2F9C1S8801 2F9C2S45F9 2F9C3S8860 2F9C4S8863
  2F9C5S27667 2F9C6S88D7 2F9C7S88DE 2F9C8S4635 2F9C9S88FA 2F9CAS34BB 2F9CBS278AE 2F9CCS27966
  2F9CDS46BE 2F9CES46C7 2F9CFS8AA0 2F9D0S8AED 2F9D1S8B8A 2F9D2S8C55 2F9D3S27CA8 2F9D4S8CAB
  2F9D5S8CC1 2F9D6S8D1B 2F9D7S8D77 2F9D8S27F2F 2F9D9S20804 2F9DAS8DCB 2F9DBS8DBC 2F9DCS8DF0
  2F9DDS208DE 2F9DES8ED4 2F9DFS8F38 2F9E0S285D2 2F9E1S285ED 2F9E2S9094 2F9E3S90F1 2F9E4S9111
  2F9E5S2872E 2F9E6S911B 2F9E7S9238 2F9E8S92D7 2F9EAS927C 2F9EBS93F9 2F9ECS9415 2F9EDS28BFA
  2F9EES958B 2F9EFS4995 2F9F0S95B7 2F9F1S28D77 2F9F2S49E6 2F9F3S96C3 2F9F4S5DB2 2F9F5S9723
  2F9F6S29145 2F9F7S2921A 2F9F8S4A6E 2F9F9S4A76 2F9FAS97E0 2F9FBS2940A 2F9FCS4AB2 2F9FDS29496
  2F9FEM980B 2FA00S9829 2FA01S295B6 2FA02S98E2 2FA03S4B33 2FA04S9929 2FA05S99A7 2FA06S99C2
  2FA07S99FE 2FA08S4BCE 2FA09S29B30 2FA0AS9B12 2FA0BS9C40 2FA0CS9CFD 2FA0DS4CCE 2FA0ES4CED
  2FA0FS9D67 2FA10S2A0CE 2FA11S4CF8 2FA12S2A105 2FA13S2A20E 2FA14S2A291 2FA15S9EBB 2FA16S4D56
  2FA17S9EF9 2FA18S9EFE 2FA19S9F05 2FA1AS9F0F 2FA1BS9F16 2FA1CS9F3B 2FA1DS2A600 2FA1EX 30000V 3134BX
  31350V 3347AX E0100I E01F0X"

end Rebadge.Url.Domain
